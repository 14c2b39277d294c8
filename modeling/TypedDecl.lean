import TypedDecl.Descriptions
import TypedDecl.Main
import TypedDecl.Proofs.Nesting
import TypedDecl.Proofs.CatalogCode
import TypedDecl.Proofs.DirectoryModel
import TypedDecl.Proofs.Reading.Signs
import TypedDecl.Proofs.Layout.Lines
import TypedDecl.Proofs.DirectoryCode
import TypedDecl.Proofs.FileCode
import TypedDecl.Proofs.DirectoryText
import TypedDecl.Proofs.ResourceConstants
import TypedDecl.Proofs.DirectoryNaming
import TypedDecl.Proofs.CatalogNaming
import TypedDecl.Proofs.Lexemes
import TypedDecl.Proofs.Comments
import TypedDecl.Proofs.Files.Writes
import TypedDecl.Proofs.CommandLine.Reruns
import TypedDecl.Proofs.CatalogCapture
import TypedDecl.Proofs.DirectoryRuntime
import TypedDecl.Proofs.EditionKeywords
import TypedDecl.Proofs.CommandLine.Connections
import TypedDecl.Proofs.TablePartition
import TypedDecl.Proofs.WrittenLiterals
import TypedDecl.Proofs.SanitizedNames
import TypedDecl.Proofs.CatalogUnion
import TypedDecl.Proofs.Violations
import TypedDecl.Proofs.PlainNames
import TypedDecl.Proofs.PlainDirectories
import TypedDecl.Proofs.DirectoryHistory
import TypedDecl.Proofs.Headers
import TypedDecl.Proofs.Namespaces
import TypedDecl.Proofs.ConnectionStrings
import TypedDecl.Proofs.TypeSettings
import TypedDecl.Proofs.CommandLine.Selectors
import TypedDecl.Proofs.Descriptions
import TypedDecl.Proofs.DocumentSettings
import TypedDecl.Proofs.CatalogRecords

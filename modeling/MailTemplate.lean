import MailTemplate.Main
import MailTemplate.Files.Tree
import MailTemplate.Proofs.Compile.Output
import MailTemplate.Proofs.Compile.Comments
import MailTemplate.Proofs.Compile.Braces
import MailTemplate.Proofs.Compile.Breaks
import MailTemplate.Proofs.Compile.Escaping
import MailTemplate.Proofs.Compile.Endings
import MailTemplate.Proofs.Compile.Concatenation
import MailTemplate.Proofs.Render.Optional
import MailTemplate.Proofs.Render.Scopes
import MailTemplate.Proofs.Render.Desugaring
import MailTemplate.Proofs.Render.Limit
import MailTemplate.Proofs.Render.PresentStates
import MailTemplate.Proofs.Render.NamedMembers
import MailTemplate.Proofs.Render.Variables
import MailTemplate.Proofs.CommandLine.Check
import MailTemplate.Proofs.CommandLine.Render
import MailTemplate.Proofs.Compile.References
import MailTemplate.Proofs.Renderer.Placeholder
import MailTemplate.Proofs.Compile.MarkedText
import MailTemplate.Proofs.Render.Compound
import MailTemplate.Proofs.Template.Matching
import MailTemplate.Proofs.Token.Spelling
import MailTemplate.Proofs.Token.Tiling
import MailTemplate.Proofs.Value.Equality
import MailTemplate.Proofs.Value.Paths
import MailTemplate.Proofs.Template.Statements
import MailTemplate.Proofs.Json.Reader
import MailTemplate.Proofs.Yaml.Settings

import HttpSnippet.Main
import HttpSnippet.Proofs.Source.Fragment
import HttpSnippet.Proofs.Source.Json
import HttpSnippet.Proofs.Containment.Node
import HttpSnippet.Proofs.Containment.Php
import HttpSnippet.Proofs.Normal.Idempotence
import HttpSnippet.Proofs.Source.Literal
import HttpSnippet.Proofs.Source.Reader
import HttpSnippet.Proofs.Source.Object
import HttpSnippet.Proofs.Form.Grouping
import HttpSnippet.Proofs.Form.Urlencoded
import HttpSnippet.Proofs.Form.Multipart
import HttpSnippet.Proofs.Form.Uploads
import HttpSnippet.Proofs.Number.Shortest
import HttpSnippet.Proofs.Json.Text
import HttpSnippet.Proofs.Json.Numeral
import HttpSnippet.Proofs.Json.RoundTrip
import HttpSnippet.Proofs.Body.Room
import HttpSnippet.Proofs.Body.Raw
import HttpSnippet.Proofs.Body.Graphql
import HttpSnippet.Proofs.Json.WellFormed
import HttpSnippet.Proofs.Body.Standard
import HttpSnippet.Proofs.Disabled.Normal
import HttpSnippet.Proofs.Disabled.Snippet
import HttpSnippet.Proofs.Options.Mapping
import HttpSnippet.Proofs.Options.Loaded
import HttpSnippet.Proofs.Check.Fault
import HttpSnippet.Proofs.Json.Grammar
import HttpSnippet.Proofs.Json.Step
import HttpSnippet.Proofs.Json.Halt
import HttpSnippet.Proofs.Json.Room
import HttpSnippet.Proofs.Text.Utf8
import HttpSnippet.Proofs.Yaml.Escape
import HttpSnippet.Proofs.Files.Settled
import HttpSnippet.Proofs.Text.Blank
import HttpSnippet.Proofs.Body.Trimmed
import HttpSnippet.Proofs.Number.Integer
import HttpSnippet.Proofs.Number.Overflow
import HttpSnippet.Proofs.Outcome
import HttpSnippet.Proofs.Normal.Frame
import HttpSnippet.Proofs.Header.Reading
import HttpSnippet.Proofs.Header.Injected
import HttpSnippet.Proofs.Normal.Delivery
import HttpSnippet.Proofs.Source.Indentation
import HttpSnippet.Proofs.Text.Separator
import HttpSnippet.Proofs.Url.RoundTrip
import HttpSnippet.Proofs.Url.Address
import HttpSnippet.Proofs.Form.Enumeration
import HttpSnippet.Proofs.Text.Case
import HttpSnippet.Proofs.Check.Written
import HttpSnippet.Proofs.Check.Canonical
import HttpSnippet.Proofs.Check.Fields
import HttpSnippet.Proofs.Check.Variables
import HttpSnippet.Proofs.Check.Layout
import HttpSnippet.Proofs.Files.Written
import HttpSnippet.Proofs.CommandLine.Flags
import HttpSnippet.Proofs.CommandLine.Settings
import HttpSnippet.Proofs.CommandLine.Generate
import HttpSnippet.Proofs.Callback
import HttpSnippet.Proofs.Url.Parts
import HttpSnippet.Proofs.Number.Seconds
import HttpSnippet.Proofs.Url.Placeholder
import HttpSnippet.Proofs.Normal.Repetition
import HttpSnippet.Proofs.Url.Survival
import HttpSnippet.Proofs.Form.Expansion
import HttpSnippet.Proofs.Options.Merged
import HttpSnippet.Proofs.Header.Complete
import HttpSnippet.Proofs.Source.Search
import HttpSnippet.Proofs.Form.Announced
import HttpSnippet.Proofs.Body.Refusal
import HttpSnippet.Proofs.Form.Recovery
import HttpSnippet.Proofs.Form.Interleaving
import HttpSnippet.Proofs.Text.Utf16
import HttpSnippet.Proofs.Source.Replacement
import HttpSnippet.Proofs.Source.StringLiteral
import HttpSnippet.Proofs.Text.Base64
import HttpSnippet.Proofs.Normal.Credentials
import HttpSnippet.Proofs.Text.Pattern
import HttpSnippet.Proofs.Header.MediaType
import HttpSnippet.Proofs.Source.Statement
import HttpSnippet.Proofs.Body.Marks
import HttpSnippet.Proofs.Body.Declared

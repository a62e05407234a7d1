import FieldRules.Audit.Sink
import FieldRules.Dependency.Contrapositive
import FieldRules.Field.Overlay
import FieldRules.Inheritance
import FieldRules.Path
import FieldRules.Range.Check
import FieldRules.Range.Describe
import FieldRules.Record.Range
import FieldRules.Record.Reply
import FieldRules.Rule.Check
import FieldRules.Service.Application
import FieldRules.Service.Compliance
import FieldRules.Service.SettingsCheck
import FieldRules.Service.Validation
import FieldRules.Settings.Load
import FieldRules.Value.Flatten
import FieldRules.Value.Nest
import FieldRules.Proofs.Dependency.Graph
import FieldRules.Proofs.Dependency.Search
import FieldRules.Proofs.Dependency.Closing
import FieldRules.Proofs.Dependency.Order
import FieldRules.Proofs.Dependency.Harmful
import FieldRules.Proofs.Double.Bound
import FieldRules.Proofs.Value.Writable
import FieldRules.Proofs.Value.Decoded
import FieldRules.Proofs.Value.Unrest
import FieldRules.Proofs.Run.Pass
import FieldRules.Proofs.Run.Total
import FieldRules.Proofs.Run.Reset
import FieldRules.Proofs.Run.Settling
import FieldRules.Proofs.Rule.Effect
import FieldRules.Proofs.Run.Replay
import FieldRules.Proofs.Run.History
import FieldRules.Proofs.Run.Idempotence
import FieldRules.Proofs.Inheritance.Ascent
import FieldRules.Proofs.Inheritance.Resolution
import FieldRules.Proofs.Inheritance.Report
import FieldRules.Proofs.Service.Selection
import FieldRules.Proofs.Entries
import FieldRules.Proofs.Run.Sequel
import FieldRules.Proofs.Json.Quoted
import FieldRules.Proofs.Numeral
import FieldRules.Proofs.Service.Application
import FieldRules.Proofs.Json.Number
import FieldRules.Proofs.Range.Shown
import FieldRules.Proofs.Rule.ListText
import FieldRules.Proofs.Audit.Delivery
import FieldRules.Proofs.Run.Trigger
import FieldRules.Proofs.Run.Standing
import FieldRules.Proofs.Run.Unconditional
import FieldRules.Proofs.Run.Quiet
import FieldRules.Proofs.Range.Answers
import FieldRules.Proofs.Field.Layout
import FieldRules.Proofs.Service.SettingsCheck
import FieldRules.Proofs.Record.Dump
import FieldRules.Proofs.Run.Holding
import FieldRules.Proofs.Json.Bracket
import FieldRules.Proofs.Rule.Edits
import FieldRules.Proofs.Text.Erasure
import FieldRules.Proofs.Value.Membership
import FieldRules.Proofs.Rule.Membership
import FieldRules.Proofs.Dependency.Elementary
import FieldRules.Proofs.Run.Enforced
import FieldRules.Proofs.Run.Swap
import FieldRules.Proofs.Run.Required
import FieldRules.Proofs.Rule.Signature
import FieldRules.Proofs.Rule.Clash
import FieldRules.Proofs.Run.Merge
import FieldRules.Proofs.Rule.Dispute
import FieldRules.Proofs.Inheritance.Lineage
import FieldRules.Proofs.Range.Choices
import FieldRules.Proofs.Range.Reading
import FieldRules.Proofs.Path.Ancestors
import FieldRules.Proofs.Audit.Session
import FieldRules.Proofs.Audit.Replacement
import FieldRules.Proofs.Run.Remnant
import FieldRules.Proofs.Service.Compliance
import FieldRules.Proofs.Dependency.Course
import FieldRules.Proofs.Json.Printable
import FieldRules.Proofs.Settings.Precedence

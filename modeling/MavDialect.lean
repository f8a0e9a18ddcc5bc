import MavDialect.CompileText
import MavDialect.Dialect.Json
import MavDialect.SortedMap.Lookup
import MavDialect.Proofs.BuiltField
import MavDialect.Proofs.FingerprintScope
import MavDialect.Proofs.CompileStages
import MavDialect.Proofs.Outcome
import MavDialect.Proofs.Placement
import MavDialect.Proofs.MessageLayout
import MavDialect.Proofs.FingerprintReading
import MavDialect.Proofs.DefinitionReading
import MavDialect.Proofs.FirstFault
import MavDialect.Proofs.Acceptance
import MavDialect.Proofs.Alignment
import MavDialect.Proofs.CompiledElements
import MavDialect.Proofs.WorkInProgress
import MavDialect.Proofs.ExtensionLayout
import MavDialect.Proofs.Locality
import MavDialect.Proofs.MessageExtension
import MavDialect.Proofs.WireCompatibility
import MavDialect.Proofs.DigestFeeding
import MavDialect.Proofs.NearbyInputs
import MavDialect.Proofs.BatchOutcome
import MavDialect.Proofs.LastWrites
import MavDialect.Proofs.MirroredMessage
import MavDialect.Proofs.CarrierNames
import MavDialect.Proofs.SharedPrefix
import MavDialect.Proofs.ShortNames
import MavDialect.Proofs.EnumNumbering
import MavDialect.Proofs.Replacement
import MavDialect.Proofs.Ordinals
import MavDialect.Proofs.CaseMapping
import MavDialect.Proofs.JsonSpelling
import MavDialect.Proofs.JsonReading
import MavDialect.Proofs.DialectText
import MavDialect.Proofs.TreeText
import MavDialect.Proofs.LabelShape
import MavDialect.Proofs.PositionalNotation
import MavDialect.Proofs.WhiteSpace
import MavDialect.Proofs.FieldTypeReading
import MavDialect.Proofs.EnumNumeralReading
import MavDialect.Proofs.Wrapping
import MavDialect.Proofs.FewestLines
import MavDialect.Proofs.CaseOrigins
import MavDialect.Proofs.SigmaContext
import MavDialect.Proofs.JoinedNames
import MavDialect.Proofs.MirroredEnum
import MavDialect.Proofs.DistinguishedNames
import MavDialect.Proofs.Respacing
import MavDialect.Proofs.DeclaredCommands

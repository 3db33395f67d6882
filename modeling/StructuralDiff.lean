import StructuralDiff.Main
import StructuralDiff.Policy.Normalizer
import StructuralDiff.Proofs.Cutoff
import StructuralDiff.Proofs.Legible
import StructuralDiff.Proofs.PlainPolicies
import StructuralDiff.Proofs.Equality
import StructuralDiff.Proofs.Position
import StructuralDiff.Proofs.Disagreement
import StructuralDiff.Proofs.Meeting
import StructuralDiff.Proofs.Filtering
import StructuralDiff.Proofs.Canonical
import StructuralDiff.Proofs.Indexing
import StructuralDiff.Proofs.UniquePaths
import StructuralDiff.Proofs.NumberOrder
import StructuralDiff.Proofs.NumberText
import StructuralDiff.Proofs.Reordering
import StructuralDiff.Proofs.KeyText
import StructuralDiff.Proofs.SwappedPairing
import StructuralDiff.Proofs.Swapping
import StructuralDiff.Proofs.SelfComparison
import StructuralDiff.Proofs.Recovery
import StructuralDiff.Proofs.LeftOut
import StructuralDiff.Proofs.DocumentOrder
import StructuralDiff.Proofs.Addresses
import StructuralDiff.Proofs.Relaxing
import StructuralDiff.Proofs.GivenSettings
import StructuralDiff.Proofs.CommandText
import StructuralDiff.Proofs.RunStages
import StructuralDiff.Proofs.AcceptedArguments
import StructuralDiff.Proofs.PolicyFileText
import StructuralDiff.Proofs.PolicySources
import StructuralDiff.Proofs.ExitCode
import StructuralDiff.Proofs.IndexFaults
import StructuralDiff.Proofs.Surplus
import StructuralDiff.Proofs.AlignedKeys
import StructuralDiff.Proofs.CompactText
import StructuralDiff.Proofs.KeyIdentity
import StructuralDiff.Proofs.PathDepth
import StructuralDiff.Proofs.KeyResolution
import StructuralDiff.Proofs.KeySegments
import StructuralDiff.Proofs.Wildcards
import StructuralDiff.Proofs.KeyLookup
import StructuralDiff.Proofs.KeyValueOrder
import StructuralDiff.Proofs.InvalidKeys
import StructuralDiff.Proofs.Exclusion
import StructuralDiff.Proofs.SettingLeaves
import StructuralDiff.Proofs.DraftCalls
import StructuralDiff.Proofs.LegalDrafts
import StructuralDiff.Proofs.RecordedFindings
import StructuralDiff.Proofs.JsonTokens
import StructuralDiff.Proofs.JsonReport
import StructuralDiff.Proofs.ReportLines
import StructuralDiff.Proofs.LongReport
import StructuralDiff.Proofs.TableReport
import StructuralDiff.Proofs.JsonReading
import StructuralDiff.Proofs.ReadingBack
import StructuralDiff.Proofs.SegmentGrammar
import StructuralDiff.Proofs.NumberValue
import StructuralDiff.Proofs.PlainNumbers
import StructuralDiff.Proofs.YamlJsonForm
import StructuralDiff.Proofs.YamlMappings
import StructuralDiff.Proofs.YamlKeys

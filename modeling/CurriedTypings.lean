import CurriedTypings.Main
import CurriedTypings.Proofs.FirstDefect
import CurriedTypings.Proofs.GroupedCalls
import CurriedTypings.Proofs.ModeAgreement
import CurriedTypings.Proofs.RecordDefects
import CurriedTypings.Proofs.DeclarationOrder
import CurriedTypings.Proofs.ArityNumeral
import CurriedTypings.Proofs.TableVerdict
import CurriedTypings.Proofs.PlanVerdict
import CurriedTypings.Proofs.OverloadVerdict
import CurriedTypings.Proofs.PrintedTypes
import CurriedTypings.Proofs.EmitterTrace
import CurriedTypings.Proofs.Exports
import CurriedTypings.Proofs.Interruption
import CurriedTypings.Proofs.CurriableSelection
import CurriedTypings.Proofs.RunTotals
import CurriedTypings.Proofs.WrittenFiles
import CurriedTypings.Proofs.CauseChains
import CurriedTypings.Proofs.CommandRuns
import CurriedTypings.Proofs.Json.Forms
import CurriedTypings.Proofs.Json.Tokens
import CurriedTypings.Proofs.Json.Numbers
import CurriedTypings.Proofs.Json.Skipping
import CurriedTypings.Proofs.Json.Values
import CurriedTypings.Proofs.Json.Records
import CurriedTypings.Proofs.TableDocuments
import CurriedTypings.Proofs.MergedAliases
import CurriedTypings.Proofs.RepeatedKeys
import CurriedTypings.Proofs.Patterns
import CurriedTypings.Proofs.ParamTags
import CurriedTypings.Proofs.TagReading
import CurriedTypings.Proofs.RenderedEntries
import CurriedTypings.Proofs.SpreadTypes
import CurriedTypings.Proofs.DeclarationLines
import CurriedTypings.Proofs.TypeVariables
import CurriedTypings.Proofs.DeclarationRuns
import CurriedTypings.Proofs.RecordAssembly

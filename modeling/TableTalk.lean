import TableTalk.Main
import TableTalk.Source.Memory
import TableTalk.Proofs.Sql.Grammar
import TableTalk.Proofs.Intent.Data
import TableTalk.Proofs.Intent.Grammar
import TableTalk.Proofs.Intent.Literals
import TableTalk.Proofs.Sql.Clauses
import TableTalk.Proofs.Sql.Refusal
import TableTalk.Proofs.Store.Evaluation
import TableTalk.Proofs.Store.Execution
import TableTalk.Proofs.Store.Resolution
import TableTalk.Proofs.Intent.Drilling
import TableTalk.Proofs.Intent.Acceptance
import TableTalk.Proofs.Sql.Keywords
import TableTalk.Proofs.Intent.Scoping
import TableTalk.Proofs.Sql.Unbroken
import TableTalk.Proofs.Intent.Contraction
import TableTalk.Proofs.Intent.Dialects
import TableTalk.Proofs.Decimal.Double
import TableTalk.Proofs.Decimal.Spelling
import TableTalk.Proofs.Store.Figures
import TableTalk.Proofs.Chat.Turns
import TableTalk.Proofs.Chat.Ownership
import TableTalk.Proofs.Intent.Results
import TableTalk.Proofs.Store.Renaming
import TableTalk.Proofs.Intent.Renaming
import TableTalk.Model.Wire
import TableTalk.Proofs.Intent.Comparison
import TableTalk.Proofs.Intent.Counting
import TableTalk.Proofs.Intent.RoundTrip
import TableTalk.Proofs.Model.Fallback
import TableTalk.Proofs.Store.Conjunction
import TableTalk.Proofs.Store.Patterns
import TableTalk.Proofs.Intent.Conjunction
import TableTalk.Proofs.Decimal.Numbers
import TableTalk.Proofs.Intent.Insertion
import TableTalk.Proofs.Intent.Containing
import TableTalk.Proofs.Intent.Labels
import TableTalk.Proofs.Intent.Trichotomy
import TableTalk.Proofs.Store.Buckets
import TableTalk.Proofs.Store.Contents
import TableTalk.Proofs.Store.History
import TableTalk.Proofs.Intent.Replies
import TableTalk.Proofs.Intent.Truncation
import TableTalk.Proofs.Intent.Chronology
import TableTalk.Proofs.Intent.Rearrangement
import TableTalk.Proofs.Chart.Roles
import TableTalk.Proofs.Insight.Leader
import TableTalk.Proofs.Table.Insertions
import TableTalk.Proofs.Insight.Layout
import TableTalk.Proofs.Insight.Distinct
import TableTalk.Source.Tree
import TableTalk.Proofs.Source.Contained
import TableTalk.Proofs.Calendar.Agreement

import SearchWords.Event
import SearchWords.Expr.Canonical
import SearchWords.Expr.Line
import SearchWords.Expr.Outline
import SearchWords.Grammar
import SearchWords.Proofs.Automaton.Front
import SearchWords.Proofs.Automaton.Ranks
import SearchWords.Proofs.Automaton.Trace
import SearchWords.Proofs.Compiler.Ambiguity
import SearchWords.Proofs.Compiler.Binding
import SearchWords.Proofs.Compiler.Conjunction
import SearchWords.Proofs.Compiler.Containment
import SearchWords.Proofs.Compiler.Grouping
import SearchWords.Proofs.Compiler.Hits
import SearchWords.Proofs.Compiler.Noninterference
import SearchWords.Proofs.Compiler.Operand
import SearchWords.Proofs.Expr.Caret
import SearchWords.Proofs.Expr.Complement
import SearchWords.Proofs.Expr.Grammar
import SearchWords.Proofs.Expr.Height
import SearchWords.Proofs.Expr.Outline
import SearchWords.Proofs.Expr.Wrapping
import SearchWords.Proofs.Settings.RoundTrip
import SearchWords.Proofs.Token.Layout
import SearchWords.Proofs.Word.Pattern
import SearchWords.Proofs.Word.Position
import SearchWords.Settings.File

import ExprLang.Pattern.Reader
import ExprLang.Main
import ExprLang.Double.Spelling
import ExprLang.Lexer.Workspace
import ExprLang.Parser.Session
import ExprLang.Tree.Text
import ExprLang.Tree.Visitor
import ExprLang.Proofs.Parser.Precedence
import ExprLang.Proofs.Parser.Language
import ExprLang.Proofs.Parser.EarliestFault
import ExprLang.Proofs.Parser.ClassifiedFault
import ExprLang.Proofs.Lexer.Segment
import ExprLang.Proofs.Lexer.Tokenize
import ExprLang.Proofs.Lexer.Restart
import ExprLang.Proofs.Parser.StrayClosing
import ExprLang.Proofs.Lexer.Scanner
import ExprLang.Proofs.Lexer.RoundTrip
import ExprLang.Proofs.Lexer.Seam
import ExprLang.Proofs.Lexer.Session
import ExprLang.Proofs.Lexer.Runs
import ExprLang.Proofs.Token.ParseNumber
import ExprLang.Proofs.Source.FaultPlace
import ExprLang.Proofs.Parser.Append
import ExprLang.Proofs.Source.FileText
import ExprLang.Proofs.Source.Unreachable
import ExprLang.Proofs.Parser.NestingLimit
import ExprLang.Proofs.Lexer.Transparency
import ExprLang.Proofs.Parser.LevelOrder
import ExprLang.Proofs.Parser.CursorKept
import ExprLang.Proofs.Source.Layout
import ExprLang.Proofs.CommandLine.FileRun
import ExprLang.Proofs.CommandLine.TreeText
import ExprLang.Proofs.Tree.Rendered
import ExprLang.Proofs.Source.NodeText
import ExprLang.Proofs.Parser.NegativeLevel

import CalcChatter.Lib.Comp
import CalcChatter.Lib.Cut
import CalcChatter.Lib.Bags
import CalcChatter.Lib.Machine
import CalcChatter.Lib.Network
import CalcChatter.Lib.Merge
import CalcChatter.Lib.Ownership
import CalcChatter.Cxx.String
import CalcChatter.Cxx.Atoi
import CalcChatter.Tokeniser
import CalcChatter.Wheel
import CalcChatter.Calc.Basic
import CalcChatter.Calc.Add
import CalcChatter.Calc.Header
import CalcChatter.Calc.Delimiters
import CalcChatter.Calc.Numerals
import CalcChatter.Calc.Render
import CalcChatter.Calc.Meaning
import CalcChatter.Calc.Concat
import CalcChatter.Calc.Bound
import CalcChatter.Calc.Scalc
import CalcChatter.Calc.Script
import CalcChatter.Calc.Console
import CalcChatter.Calc.Transcript
import CalcChatter.Chat.Transport
import CalcChatter.Chat.Channel
import CalcChatter.Chat.Endpoint
import CalcChatter.Chat.Receive
import CalcChatter.Chat.Counting
import CalcChatter.Chat.Strangers
import CalcChatter.Chat.Presenter
import CalcChatter.Chat.Sending
import CalcChatter.Chat.Exchange
import CalcChatter.Chat.Lossy
import CalcChatter.Chat.Button
import CalcChatter.Chat.App
import CalcChatter.Chat.Lifecycle
import CalcChatter.Chat.Applications
import CalcChatter.Chat.Settling
import CalcChatter.Chat.Crowd
import CalcChatter.Chat.Hearing
import CalcChatter.Chat.Statements
import CalcChatter.Chat.Descriptors

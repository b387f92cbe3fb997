import TriggerScript.Console.Completion
import TriggerScript.Console.Options
import TriggerScript.Console.Session
import TriggerScript.Console.Transcript
import TriggerScript.Error
import TriggerScript.Language.Command
import TriggerScript.Language.Command.Parser
import TriggerScript.Language.Line
import TriggerScript.Language.Modifier
import TriggerScript.Language.Operator
import TriggerScript.Language.Token
import TriggerScript.Language.Token.Lexer
import TriggerScript.Machine.Calibration
import TriggerScript.Machine.DelayQueue
import TriggerScript.Machine.Entry
import TriggerScript.Machine.Execute
import TriggerScript.Machine.Hardware
import TriggerScript.Machine.Midi
import TriggerScript.Machine.Operators
import TriggerScript.Machine.Pattern
import TriggerScript.Machine.Scene
import TriggerScript.Machine.Script
import TriggerScript.Machine.Stack
import TriggerScript.Machine.Turtle
import TriggerScript.Main
import TriggerScript.Proofs.ActionSpec
import TriggerScript.Proofs.RunInvariant
import TriggerScript.Proofs.Termination
import TriggerScript.Proofs.Divergence
import TriggerScript.Random.ChaCha
import TriggerScript.Random.Generator
import TriggerScript.Random.Uniform
import TriggerScript.Record.Bytes
import TriggerScript.Record.Crc
import TriggerScript.Record.Device
import TriggerScript.Record.Scene
import TriggerScript.Storage
import TriggerScript.Text.Blank
import TriggerScript.Text.Similarity
import TriggerScript.Text.Unsigned
import TriggerScript.Value.Arithmetic
import TriggerScript.Proofs.RecordCodec
import TriggerScript.Proofs.StoredState
import TriggerScript.Proofs.StoredRuns
import TriggerScript.Proofs.SceneImage
import TriggerScript.Proofs.Reachable
import TriggerScript.Proofs.Resave
import TriggerScript.Proofs.Grammar
import TriggerScript.Proofs.Reprint
import TriggerScript.Proofs.DelayOrder
import TriggerScript.Proofs.DelayFiring
import TriggerScript.Proofs.RequestLog
import TriggerScript.Proofs.RuntimeBounds
import TriggerScript.Proofs.HardwareContract
import TriggerScript.Proofs.LineShape
import TriggerScript.Proofs.LineFrame
import TriggerScript.Proofs.DeferredCommands
import TriggerScript.Proofs.IfChains
import TriggerScript.Proofs.CounterEvents
import TriggerScript.Proofs.CounterRuns
import TriggerScript.Proofs.EveryLines
import TriggerScript.Proofs.PatternWindow
import TriggerScript.Proofs.TransientReset
import TriggerScript.Proofs.ScriptEdits
import TriggerScript.Proofs.LoopPasses
import TriggerScript.Proofs.PatternData
import TriggerScript.Proofs.MidiBatches
import TriggerScript.Proofs.MidiRuns
import TriggerScript.Proofs.MidiClock
import TriggerScript.Proofs.MidiFlush
import TriggerScript.Proofs.DelayModifiers
import TriggerScript.Proofs.LexerRules
import TriggerScript.Proofs.LiteralValues
import TriggerScript.Proofs.TimeClock
import TriggerScript.Checked
import TriggerScript.Checked.Parts
import TriggerScript.Checked.Executor
import TriggerScript.Checked.Record
import TriggerScript.Proofs.CheckedArithmetic
import TriggerScript.Proofs.CheckedParts
import TriggerScript.Proofs.CheckedRuns
import TriggerScript.Proofs.CheckedSteps
import TriggerScript.Proofs.CheckedEntries
import TriggerScript.Proofs.CheckedRecord
import TriggerScript.Proofs.CheckedCalls

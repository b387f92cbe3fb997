/-!
The operator table of the script language.

Every operator has a canonical name and possibly aliases, a number of operands in its
getter form, and may have a setter form that takes one value more. Pattern operators come
in two families: `P…` works on the selected pattern, `PN…` names the pattern in a first
operand. `Operator.all` lists every operator in table order; a name is looked up in the
token table built from it.
-/

set_option autoImplicit false
set_option relaxedAutoImplicit false

namespace TriggerScript

inductive OperatorClass
  /-- Reads only its operands. -/
  | pure
  /-- Reads or writes scene state or hardware. -/
  | effect
  /-- Decides which operands are evaluated. -/
  | control
  deriving DecidableEq, Repr, Inhabited

/-- Pattern operations, shared by the selected-pattern family and the named-pattern
family. -/
inductive PatternOp
  | value | len | wrap | start | finish | index | here | next | prev | step | ins | rm
  | push | pop | min | max | rnd
  deriving DecidableEq, Repr, Inhabited

namespace PatternOp

/-- Every pattern operation, in table order. -/
def all : List PatternOp :=
  [.value, .len, .wrap, .start, .finish, .index, .here, .next, .prev, .step, .ins, .rm,
    .push, .pop, .min, .max, .rnd]

/-- The text that follows `P` or `PN` in the operator's name. -/
def suffix : PatternOp → String
  | .value => ""
  | .len => ".L"
  | .wrap => ".WRAP"
  | .start => ".START"
  | .finish => ".END"
  | .index => ".I"
  | .here => ".HERE"
  | .next => ".NEXT"
  | .prev => ".PREV"
  | .step => ".STEP"
  | .ins => ".INS"
  | .rm => ".RM"
  | .push => ".PUSH"
  | .pop => ".POP"
  | .min => ".MIN"
  | .max => ".MAX"
  | .rnd => ".RND"

def arity : PatternOp → Nat
  | .value | .step | .rm | .push => 1
  | .ins => 2
  | _ => 0

def settable : PatternOp → Bool
  | .value | .len | .wrap | .start | .finish | .index | .here => true
  | _ => false

end PatternOp

inductive Operator
  | add | sub | mul | div | modulo | min | max | lim | wrap | avg | abs | sgn
  | eq | ne | lt | gt | lte | gte | inr | outr | ez | nz
  | logicAnd | logicOr | logicXor | bitAnd | bitOr | bitXor | bitNot | lsh | rsh
  | qt | note | volts | millivolts | bpm
  | rand | rrand | toss | seed | ternary
  | cv | cvSlew | cvOff | cvSet | tr | trPol | trTime | trTog | trPulse
  | metro | metroAct | metroReset | time | timeAct | last
  | scene | script | scriptPol | mute | state | halt | kill
  | initPattern | initPatterns | initData | delayClear
  | stackClear | stackAll | stackPop | stackLen
  | patternBank
  | turtle | turtleX | turtleY | turtleDir | turtleStep | turtleFwd | turtleBump
  | turtleMove | turtleTurn | turtleQTurn | turtleHome
  | gridLed | gridClear | gridKey | iiTx | iiRx
  | inCalMin | inCalMax | inCalReset | paramCalMin | paramCalMax | paramCalReset
  | midiBind | midiLastEvent | midiLastChannel | midiLastNote | midiLastVelocity
  | midiLastController | midiLastCc | midiNoteCount | midiNote | midiVelocity
  | midiNoteChannel | midiOffCount | midiOff | midiOffChannel | midiCcCount
  | midiCcNumber | midiCcValue | midiCcChannel | midiClockDiv | midiClockReset
  | deviceFlip
  /-- A pattern operation on the selected pattern. -/
  | pattern (p : PatternOp)
  /-- A pattern operation on the pattern named by the first operand. -/
  | patternAt (p : PatternOp)
  deriving DecidableEq, Repr, Inhabited

namespace Operator

/-- The operators outside the pattern families, in table order. -/
def plain : List Operator :=
  [.add, .sub, .mul, .div, .modulo, .min, .max, .lim, .wrap, .avg, .abs, .sgn,
    .eq, .ne, .lt, .gt, .lte, .gte, .inr, .outr, .ez, .nz,
    .logicAnd, .logicOr, .logicXor, .bitAnd, .bitOr, .bitXor, .bitNot, .lsh, .rsh,
    .qt, .note, .volts, .millivolts, .bpm,
    .rand, .rrand, .toss, .seed, .ternary,
    .cv, .cvSlew, .cvOff, .cvSet, .tr, .trPol, .trTime, .trTog, .trPulse,
    .metro, .metroAct, .metroReset, .time, .timeAct, .last,
    .scene, .script, .scriptPol, .mute, .state, .halt, .kill,
    .initPattern, .initPatterns, .initData, .delayClear,
    .stackClear, .stackAll, .stackPop, .stackLen,
    .patternBank,
    .turtle, .turtleX, .turtleY, .turtleDir, .turtleStep, .turtleFwd, .turtleBump,
    .turtleMove, .turtleTurn, .turtleQTurn, .turtleHome,
    .gridLed, .gridClear, .gridKey, .iiTx, .iiRx,
    .inCalMin, .inCalMax, .inCalReset, .paramCalMin, .paramCalMax, .paramCalReset,
    .midiBind, .midiLastEvent, .midiLastChannel, .midiLastNote, .midiLastVelocity,
    .midiLastController, .midiLastCc, .midiNoteCount, .midiNote, .midiVelocity,
    .midiNoteChannel, .midiOffCount, .midiOff, .midiOffChannel, .midiCcCount,
    .midiCcNumber, .midiCcValue, .midiCcChannel, .midiClockDiv, .midiClockReset,
    .deviceFlip]

/-- Every operator, in table order: the plain ones, then `P…`, then `PN…`. -/
def all : List Operator :=
  plain ++ PatternOp.all.map .pattern ++ PatternOp.all.map .patternAt

/-- The canonical name first, then the aliases. -/
def names : Operator → List String
  | .pattern p => ["P" ++ p.suffix]
  | .patternAt p => ["PN" ++ p.suffix]
  | .add => ["ADD", "+"]
  | .sub => ["SUB", "-"]
  | .mul => ["MUL", "*"]
  | .div => ["DIV", "/"]
  | .modulo => ["MOD", "%"]
  | .min => ["MIN"]
  | .max => ["MAX"]
  | .lim => ["LIM"]
  | .wrap => ["WRAP"]
  | .avg => ["AVG"]
  | .abs => ["ABS"]
  | .sgn => ["SGN"]
  | .eq => ["EQ", "=="]
  | .ne => ["NE", "!="]
  | .lt => ["LT", "<"]
  | .gt => ["GT", ">"]
  | .lte => ["LTE", "<="]
  | .gte => ["GTE", ">="]
  | .inr => ["INR"]
  | .outr => ["OUTR"]
  | .ez => ["EZ", "!"]
  | .nz => ["NZ"]
  | .logicAnd => ["AND", "&&"]
  | .logicOr => ["OR", "||"]
  | .logicXor => ["XOR"]
  | .bitAnd => ["BAND", "&"]
  | .bitOr => ["BOR", "|"]
  | .bitXor => ["BXOR", "^"]
  | .bitNot => ["BNOT", "~"]
  | .lsh => ["LSH", "<<"]
  | .rsh => ["RSH", ">>"]
  | .qt => ["QT"]
  | .note => ["N"]
  | .volts => ["V"]
  | .millivolts => ["VV"]
  | .bpm => ["BPM"]
  | .rand => ["RAND"]
  | .rrand => ["RRAND", "RRND"]
  | .toss => ["TOSS"]
  | .seed => ["SEED"]
  | .ternary => ["?"]
  | .cv => ["CV"]
  | .cvSlew => ["CV.SLEW"]
  | .cvOff => ["CV.OFF"]
  | .cvSet => ["CV.SET"]
  | .tr => ["TR"]
  | .trPol => ["TR.POL"]
  | .trTime => ["TR.TIME"]
  | .trTog => ["TR.TOG"]
  | .trPulse => ["TR.PULSE", "TR.P"]
  | .metro => ["M"]
  | .metroAct => ["M.ACT"]
  | .metroReset => ["M.RESET"]
  | .time => ["TIME"]
  | .timeAct => ["TIME.ACT"]
  | .last => ["LAST"]
  | .scene => ["SCENE"]
  | .script => ["SCRIPT"]
  | .scriptPol => ["SCRIPT.POL"]
  | .mute => ["MUTE"]
  | .state => ["STATE"]
  | .halt => ["BREAK"]
  | .kill => ["KILL"]
  | .initPattern => ["INIT.P"]
  | .initPatterns => ["INIT.P.ALL"]
  | .initData => ["INIT.DATA"]
  | .delayClear => ["DEL.CLR"]
  | .stackClear => ["S.CLR"]
  | .stackAll => ["S.ALL"]
  | .stackPop => ["S.POP"]
  | .stackLen => ["S.L"]
  | .patternBank => ["P.N"]
  | .turtle => ["@"]
  | .turtleX => ["@X"]
  | .turtleY => ["@Y"]
  | .turtleDir => ["@DIR"]
  | .turtleStep => ["@STEP"]
  | .turtleFwd => ["@FWD"]
  | .turtleBump => ["@BUMP"]
  | .turtleMove => ["@MOVE"]
  | .turtleTurn => ["@TURN"]
  | .turtleQTurn => ["@QTURN"]
  | .turtleHome => ["@HOME"]
  | .gridLed => ["G.LED"]
  | .gridClear => ["G.CLR"]
  | .gridKey => ["G.KEY"]
  | .iiTx => ["II.TX"]
  | .iiRx => ["II.RX"]
  | .inCalMin => ["IN.CAL.MIN"]
  | .inCalMax => ["IN.CAL.MAX"]
  | .inCalReset => ["IN.CAL.RESET"]
  | .paramCalMin => ["PARAM.CAL.MIN"]
  | .paramCalMax => ["PARAM.CAL.MAX"]
  | .paramCalReset => ["PARAM.CAL.RESET"]
  | .midiBind => ["MI.$"]
  | .midiLastEvent => ["MI.LE"]
  | .midiLastChannel => ["MI.LCH"]
  | .midiLastNote => ["MI.LN"]
  | .midiLastVelocity => ["MI.LV"]
  | .midiLastController => ["MI.LC"]
  | .midiLastCc => ["MI.LCC"]
  | .midiNoteCount => ["MI.NL"]
  | .midiNote => ["MI.N"]
  | .midiVelocity => ["MI.V"]
  | .midiNoteChannel => ["MI.NCH"]
  | .midiOffCount => ["MI.OL"]
  | .midiOff => ["MI.OFF"]
  | .midiOffChannel => ["MI.OCH"]
  | .midiCcCount => ["MI.CCL"]
  | .midiCcNumber => ["MI.CN"]
  | .midiCcValue => ["MI.CC"]
  | .midiCcChannel => ["MI.CCH"]
  | .midiClockDiv => ["MI.CLKD"]
  | .midiClockReset => ["MI.CLKR"]
  | .deviceFlip => ["DEVICE.FLIP"]

def name (o : Operator) : String :=
  o.names.headD "?"

def arity : Operator → Nat
  | .pattern p => p.arity
  | .patternAt p => p.arity + 1
  | .lim | .wrap | .inr | .outr | .ternary | .iiTx => 3
  | .add | .sub | .mul | .div | .modulo | .min | .max | .avg | .eq | .ne | .lt | .gt | .lte
  | .gte | .logicAnd | .logicOr | .logicXor | .bitAnd | .bitOr | .bitXor | .lsh | .rsh | .qt
  | .rrand | .cvSet | .turtleMove | .gridLed | .gridKey | .iiRx => 2
  | .abs | .sgn | .ez | .nz | .bitNot | .note | .volts | .millivolts | .bpm | .rand | .cv
  | .cvSlew | .cvOff | .tr | .trPol | .trTime | .trTog | .trPulse | .last | .scriptPol | .mute
  | .state | .initPattern | .turtleFwd | .turtleBump | .turtleTurn | .turtleQTurn | .midiBind
  | .midiNote | .midiVelocity | .midiNoteChannel | .midiOff | .midiOffChannel | .midiCcNumber
  | .midiCcValue | .midiCcChannel => 1
  | _ => 0

/-- Operators with a setter form, which takes one value after the getter operands. -/
def settable : Operator → Bool
  | .pattern p | .patternAt p => p.settable
  | .seed | .cv | .cvSlew | .cvOff | .tr | .trPol | .trTime | .metro | .metroAct | .time
  | .timeAct | .scene | .script | .scriptPol | .mute | .patternBank | .turtle | .turtleX
  | .turtleY | .turtleDir | .gridLed | .midiBind | .midiClockDiv => true
  | _ => false

/-- The class of an operator: `?` decides which operand runs, arithmetic and logic read
their operands only, and everything else touches the scene. -/
def opClass : Operator → OperatorClass
  | .ternary => .control
  | .add | .sub | .mul | .div | .modulo | .min | .max | .lim | .wrap | .avg | .abs | .sgn
  | .eq | .ne | .lt | .gt | .lte | .gte | .inr | .outr | .ez | .nz | .logicAnd | .logicOr
  | .logicXor | .bitAnd | .bitOr | .bitXor | .bitNot | .lsh | .rsh | .qt | .note | .volts
  | .millivolts | .bpm => .pure
  | _ => .effect

/-- `BREAK` only makes sense while its script runs, so a deferred body may not hold it. -/
def deferrable : Operator → Bool
  | .halt => false
  | _ => true

end Operator

end TriggerScript

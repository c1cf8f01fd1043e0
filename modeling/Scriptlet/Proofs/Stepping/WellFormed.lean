/-
**Running keeps well-formed programs well formed.**

What a run is about to do is always a part of a text: of a program, or of a function that it holds.
So if all programs are well formed, the focus, all that waits and all functions stay so, however
functions are stored, passed and returned. A loop in particular waits for nothing but the range that
it is written with, so it never has to refuse a value.

* `Focus.WellFormed`, `Waiting.WellFormed`: well-formed parts of a state, in which no loop waits for
  its range.
* `State.Shaped`: such a state, or one of the two in which a loop waits for its range.
* `State.WellFormed.step`: **a step keeps a state well formed.**
* `Recorded.wellFormed`: so does an interpreter that runs well-formed programs.
* `parsed_programs_stay_wellFormed`: **parsed programs are well formed, and so is every function of
  an interpreter that runs them; no loop is ever refused.**
-/

import Scriptlet.Proofs.Parser.WellFormed
import Scriptlet.Proofs.Stepping.Contents

namespace Scriptlet

open State

/-! ### Faults -/

/-- Any fault but that of a loop over something that is no range. -/
def RuntimeFault.Common : RuntimeFault → Prop
  | notIterable _ => False
  | _ => True

/-- A result without a fault, or with a common one. -/
def Commonly {α : Type} (result : Except RuntimeFault α) : Prop :=
  ∀ fault, result = .error fault → fault.Common

theorem Commonly.ok {α : Type} (value : α) : Commonly (.ok value) := by
  rintro fault ⟨⟩

theorem Commonly.error {α : Type} {fault : RuntimeFault} (common : fault.Common) :
    Commonly (.error fault : Except RuntimeFault α) := by
  rintro _ ⟨⟩
  exact common

theorem Commonly.map {α β : Type} {result : Except RuntimeFault α} (common : Commonly result)
    (change : α → β) : Commonly (result.map change) := by
  rcases result with fault | value
  · exact .error (common fault rfl)
  · exact .ok _

/-- A conversion has faults of its own. -/
theorem commonly_conversion {α : Type} (result : Except ConversionFault α) :
    Commonly (result.mapError RuntimeFault.conversion) := by
  rcases result with fault | value
  · exact .error trivial
  · exact .ok _

theorem Commonly.bind {α β : Type} {result : Except RuntimeFault α}
    {next : α → Except RuntimeFault β} (first : Commonly result)
    (later : ∀ value, Commonly (next value)) : Commonly (result >>= next) := by
  rcases result with fault | value
  · exact .error (first fault rfl)
  · exact later value

theorem commonly_remainder (left right : Number) : Commonly (left.remainder right) := by
  unfold Number.remainder
  refine (commonly_conversion _).bind fun divisor => ?_
  split
  · exact .error trivial
  · exact (commonly_conversion _).bind fun dividend => .ok _

theorem commonly_lookup (machine : Machine) (name : String) : Commonly (machine.lookup name) := by
  unfold Machine.lookup
  split
  · exact .ok _
  · exact .error trivial

theorem commonly_callee (machine : Machine) (name : String) (given : Nat) :
    Commonly (machine.callee name given) := by
  unfold Machine.callee
  split
  · next fault failed => exact .error (commonly_lookup machine name fault failed)
  · split
    · exact .ok _
    · exact .error trivial
  · exact .error trivial

namespace Value

theorem commonly_unary (operator : UnaryOperator) (operand : Value) :
    Commonly (operand.unary operator) := by
  unfold unary
  split
  · exact .ok _
  · exact .ok _
  · exact .error trivial

theorem commonly_arithmetic (operator : BinaryOperator) (left right : Value) :
    Commonly (arithmetic operator left right) := by
  unfold arithmetic
  split
  · split
    case h_5 => exact (commonly_remainder _ _).map _
    case h_6 => exact .error trivial
    all_goals exact .ok _
  · exact .error trivial

theorem commonly_comparison (operator : BinaryOperator) (left right : Value) :
    Commonly (comparison operator left right) := by
  unfold comparison
  split
  · exact .ok _
  · exact .ok _
  · split
    · split
      case h_5 => exact .error trivial
      all_goals exact .ok _
    · exact .error trivial

theorem commonly_connective (operator : BinaryOperator) (left right : Value) :
    Commonly (connective operator left right) := by
  unfold connective
  split
  · exact .ok _
  · exact .error trivial

theorem commonly_binary (operator : BinaryOperator) (left right : Value) :
    Commonly (left.binary operator right) := by
  unfold binary
  cases operator with
  | add | subtract | multiply | divide | modulo => exact commonly_arithmetic _ left right
  | and | or => exact commonly_connective _ left right
  | _ => exact commonly_comparison _ left right

theorem commonly_truth (value : Value) : Commonly value.truth := by
  unfold truth
  split
  · exact .ok _
  · exact .error trivial

theorem commonly_rightAnswer (operator : BinaryOperator) (left right : Value) :
    Commonly (left.rightAnswer operator right) := by
  unfold rightAnswer
  split
  · exact .ok _
  · exact .error trivial

end Value

/-! ### Well-formed states -/

/-- **A well-formed focus.** -/
def Focus.WellFormed : Focus → Prop
  | .evaluate expression => expression.WellFormed
  | .logical _ _ first second => first.WellFormed ∧ second.WellFormed
  | .arguments _ definition _ rest => definition.WellFormed ∧ Expr.WellFormedAll rest
  | .call _ definition _ => definition.WellFormed
  | .execute statement => statement.WellFormed
  | .block statements _ => Stmt.WellFormedAll statements
  | .branches others => Branch.WellFormedAll others
  | .whileLoop condition body => condition.WellFormed ∧ Stmt.WellFormedAll body
  | .forLoop _ _ _ _ body => Stmt.WellFormedAll body
  | .value _ => True
  | .error failure => failure.fault.Common

/-- **What waits in a well-formed state**; a loop that waits for its range is a case of its own. -/
def Waiting.WellFormed : Waiting → Prop
  | .left _ _ operand | .logicalLeft _ _ operand => operand.WellFormed
  | .argument _ definition _ rest => definition.WellFormed ∧ Expr.WellFormedAll rest
  | .statement rest => Stmt.WellFormedAll rest
  | .condition _ body others => Stmt.WellFormedAll body ∧ Branch.WellFormedAll others
  | .whileCondition tested body | .whileBody tested body =>
    tested.WellFormed ∧ Stmt.WellFormedAll body
  | .forBody _ _ _ _ body => Stmt.WellFormedAll body
  | .iterand .. => False
  | .unary .. | .right .. | .logicalRight .. | .assign _ | .print _ | .discard | .call _ => True

namespace State

/-- **A well-formed shape**: a loop waits for its range only while that is read. -/
inductive Shaped : State → Prop
  | usual {focus : Focus} {waiting : List Waiting} {machine : Machine} (fine : focus.WellFormed)
      (behind : ∀ first ∈ waiting, first.WellFormed) : Shaped ⟨focus, waiting, machine⟩
  | iterand {line loop : Nat} {range : Range} {name : String} {body : List Stmt}
      {waiting : List Waiting} {machine : Machine} (repeated : Stmt.WellFormedAll body)
      (behind : ∀ first ∈ waiting, first.WellFormed) :
      Shaped ⟨.evaluate (.range line range), .iterand loop name body :: waiting, machine⟩
  | range {loop : Nat} {range : Range} {name : String} {body : List Stmt}
      {waiting : List Waiting} {machine : Machine} (repeated : Stmt.WellFormedAll body)
      (behind : ∀ first ∈ waiting, first.WellFormed) :
      Shaped ⟨.value (.range range), .iterand loop name body :: waiting, machine⟩

/-- **A well-formed state**: its shape is, and so are all functions that it holds. -/
structure WellFormed (state : State) : Prop where
  shape : state.Shaped
  functions : state.HoldsOnly (Value.Of Definition.WellFormed)

section Steps

variable {waiting : List Waiting} {machine : Machine}
  (behind : ∀ first ∈ waiting, first.WellFormed)
include behind

theorem Shaped.push {focus : Focus} {first : Waiting} (fine : focus.WellFormed)
    (kept : first.WellFormed) : Shaped ⟨focus, first :: waiting, machine⟩ :=
  .usual fine (List.forall_mem_cons.mpr ⟨kept, behind⟩)

theorem Shaped.settle {α : Type} {line : Nat} {result : Except RuntimeFault α} {goOn : α → State}
    (common : Commonly result) (later : ∀ value, result = .ok value → Shaped (goOn value)) :
    Shaped (State.settle line result waiting machine goOn) := by
  rcases result with fault | value
  · exact .usual (common fault rfl) behind
  · exact later value rfl

/-- A result that is a value comes into focus. -/
theorem Shaped.settleValue {line : Nat} {result : Except RuntimeFault Value}
    (common : Commonly result) :
    Shaped (State.settle line result waiting machine fun value =>
      ⟨.value value, waiting, machine⟩) :=
  .settle behind common fun _ _ => .usual trivial behind

theorem shaped_ofExpr {expression : Expr} (fine : expression.WellFormed)
    (functions : machine.Of Definition.WellFormed) :
    Shaped (ofExpr expression waiting machine) := by
  cases expression with
  | number | text | boolean | range => exact .usual trivial behind
  | identifier => exact .settleValue behind (commonly_lookup _ _)
  | unary => exact .push behind fine trivial
  | binary =>
    obtain ⟨first, second⟩ := fine
    rw [ofExpr]
    split
    · exact .usual ⟨first, second⟩ behind
    · exact .push behind first second
  | call line name arguments =>
    refine .settle behind (commonly_callee _ _ _) fun definition found => ?_
    exact .usual ⟨functions.callee found, fine.2⟩ behind
  | assign => exact .push behind fine.2 trivial

/-- A loop of a well-formed statement waits for a range literal. -/
theorem shaped_ofStmt {statement : Stmt} (fine : statement.WellFormed) :
    Shaped (ofStmt statement waiting machine) := by
  cases statement with
  | print => exact .push behind fine trivial
  | conditional => exact .usual fine.2 behind
  | whileLoop => exact .usual fine behind
  | forLoop =>
    obtain ⟨-, ⟨line, range, rfl⟩, -, repeated⟩ := fine
    exact .iterand repeated behind
  | define => exact .usual trivial behind
  | expression => exact .usual fine behind

theorem shaped_ofCall {line : Nat} {definition : Definition} {values : List Value}
    (fine : definition.WellFormed) : Shaped (ofCall line definition values waiting machine) := by
  unfold ofCall
  by_cases deep : maximumDepth ≤ machine.depth
  · rw [if_pos deep]
    exact .usual trivial behind
  · rw [if_neg deep]
    exact .push behind fine.body trivial

theorem shaped_ofPass {line : Nat} {name : String} {index stop : Int} {body : List Stmt}
    (fine : Stmt.WellFormedAll body) :
    Shaped (ofPass line name index stop body waiting machine) := by
  unfold ofPass
  by_cases inside : index < stop
  · rw [if_pos inside]
    refine .settle behind (commonly_conversion _) fun number _ => ?_
    exact .push behind fine fine
  · rw [if_neg inside]
    exact .usual trivial behind

theorem shaped_ofPrint {line : Nat} {value : Value} :
    Shaped (ofPrint line value waiting machine) := by
  unfold ofPrint
  split
  · exact .usual trivial behind
  · exact .usual trivial behind

theorem shaped_resume {value : Value} {first : Waiting} (fine : first.WellFormed) :
    Shaped (resume value first waiting machine) := by
  cases first with
  | unary => exact .settleValue behind (value.commonly_unary _)
  | left => exact .push behind fine trivial
  | right => exact .settleValue behind (Value.commonly_binary _ _ value)
  | logicalLeft =>
    refine .settle behind value.commonly_truth fun answer _ => ?_
    split
    · exact .usual trivial behind
    · exact .push behind fine trivial
  | logicalRight => exact .settleValue behind (Value.commonly_rightAnswer _ _ value)
  | argument => exact .usual fine behind
  | assign => exact .usual trivial behind
  | print => exact shaped_ofPrint behind
  | iterand => exact fine.elim
  | statement => exact .usual fine behind
  | condition =>
    refine .settle behind value.commonly_truth fun holds _ => ?_
    split
    · exact .push behind fine.1 trivial
    · exact .usual fine.2 behind
  | discard => exact .usual trivial behind
  | whileCondition =>
    refine .settle behind value.commonly_truth fun holds _ => ?_
    split
    · exact .push behind fine.2 fine
    · exact .usual trivial behind
  | whileBody => exact .usual fine behind
  | forBody => exact .usual fine behind
  | call => exact .usual trivial behind

/-- A step from a state in which no loop waits for its range. -/
theorem shaped_of_usual {focus : Focus} {after : State} (fine : focus.WellFormed)
    (functions : machine.Of Definition.WellFormed) (step : Step ⟨focus, waiting, machine⟩ after) :
    Shaped after := by
  cases focus with
  | evaluate expression =>
    cases step
    exact shaped_ofExpr behind fine functions
  | logical =>
    cases step
    exact .push behind fine.1 fine.2
  | arguments line definition values rest =>
    cases rest with
    | nil =>
      cases step
      exact .usual fine.1 behind
    | cons first rest =>
      cases step
      exact .push behind fine.2.1 ⟨fine.1, fine.2.2⟩
  | call =>
    cases step
    exact shaped_ofCall behind fine
  | execute =>
    cases step
    exact shaped_ofStmt behind fine
  | block statements last =>
    cases statements with
    | nil =>
      cases step
      exact .usual trivial behind
    | cons first rest =>
      cases step
      exact .push behind fine.1 fine.2
  | branches branches =>
    rcases branches with _ | ⟨⟨condition, body⟩, rest⟩
    · cases step
      exact .usual trivial behind
    · cases step
      exact .push behind fine.1 fine.2
  | whileLoop =>
    cases step
    exact .push behind fine.1 fine
  | forLoop =>
    cases step
    exact shaped_ofPass behind fine
  | value value =>
    cases waiting with
    | nil => cases step
    | cons first rest =>
      cases step
      obtain ⟨own, others⟩ := List.forall_mem_cons.mp behind
      exact shaped_resume others own
  | error error =>
    cases waiting with
    | nil => cases step
    | cons first rest =>
      cases step
      exact .usual fine (List.forall_mem_cons.mp behind).2

end Steps

/-- The function that a well-formed state makes is well formed. -/
theorem Shaped.makes {state : State} (shape : state.Shaped) {function : Value}
    (makes : state.Makes function) : function.Of Definition.WellFormed := by
  obtain ⟨line, name, parameters, body, about, rfl⟩ := makes_iff.mp makes
  cases shape with
  | usual fine behind =>
    obtain rfl := about
    exact ⟨fine.1, fine.2.1, fine.2.2⟩
  | iterand => cases about
  | range => cases about

/-- **A step keeps a state well formed.** -/
theorem WellFormed.step {state after : State} (fine : state.WellFormed) (step : Step state after) :
    after.WellFormed := by
  obtain ⟨shape, functions⟩ := fine
  refine ⟨?_, functions.step (fun _ => Value.Of.of_kind) (fun _ => shape.makes) step⟩
  -- a loop that waits for its range takes two steps: the literal, and the range it stands for
  cases shape with
  | usual fine behind =>
    exact shaped_of_usual behind fine (Scope.of_iff.mpr functions.scope) step
  | iterand repeated behind =>
    cases step
    exact .range repeated behind
  | range repeated behind =>
    cases step
    exact .usual repeated behind

theorem shaped_begin {program : Program} (fine : Stmt.WellFormedAll program) (machine : Machine) :
    Shaped ((Action.interpret program).begin machine) :=
  .usual fine (List.forall_mem_cons.mpr ⟨trivial, List.forall_mem_nil _⟩)

end State

/-- **An interpreter that runs well-formed programs is in a well-formed state**, always. -/
theorem Recorded.wellFormed {accepted : Program → Prop} {sink : Sink} {past : List State}
    {state : State} (recorded : Recorded accepted sink past state)
    (fine : ∀ program, accepted program → Stmt.WellFormedAll program) : state.WellFormed := by
  induction recorded with
  | @fresh program given =>
    exact ⟨shaped_begin (fine program given) _,
      holdsOnly_new (fun _ => Value.Of.of_kind) program sink⟩
  | step _ step hypothesis => exact hypothesis.step step
  | @again _ _ program _ _ given hypothesis =>
    exact ⟨shaped_begin (fine program given) _,
      hypothesis.functions.again (fun _ => Value.Of.of_kind) program⟩

/-- The program of some text. -/
def Parsed (program : Program) : Prop := ∃ source, parse source = .ok program

/-- **Parsed programs are well formed and stay so.** A parsed program is well formed at every depth.
In every state of an interpreter that runs parsed programs one after another, failing or not, every
function that it holds anywhere is well formed, a loop that waits for its range is given one, and no
loop has been refused. The steps of a program end with a report exactly if the interpreter gives
it. -/
theorem parsed_programs_stay_wellFormed :
    (∀ source program, parse source = .ok program → Stmt.WellFormedAll program) ∧
    (∀ sink past state, Recorded Parsed sink past state →
      (∀ identity definition, state.Holds (.function identity definition) →
        definition.WellFormed) ∧
      (∀ value line name body rest, state.focus = .value value →
        state.waiting = .iterand line name body :: rest → ∃ range, value.iterable = .ok range) ∧
      ∀ line kind, state.focus ≠ .error ⟨line, .notIterable kind⟩) ∧
    ∀ (interpreter : Interpreter) program report,
      (∃ fuel, interpreter.interpret fuel program = some report) ↔
        ∃ last, Reaches ((Action.interpret program).begin interpreter.machine) last ∧
          Final last ∧ last.report = report := by
  refine ⟨fun source program => Parser.wellFormedAll_of_parse, ?_, ?_⟩
  · intro sink past state recorded
    have written : ∀ program, Parsed program → Stmt.WellFormedAll program := by
      rintro program ⟨source, accepted⟩
      exact Parser.wellFormedAll_of_parse accepted
    obtain ⟨shape, functions⟩ := recorded.wellFormed written
    refine ⟨fun identity definition held => holdsOnly_iff.mp functions _ held, ?_, ?_⟩
    · rintro value line name body rest about waits
      cases shape with
      | usual fine behind =>
        obtain rfl := waits
        exact (behind _ List.mem_cons_self).elim
      | iterand => cases about
      | @range _ range =>
        cases about
        exact ⟨range, rfl⟩
    · rintro line kind about
      cases shape with
      | usual fine behind =>
        obtain rfl := about
        exact fine
      | iterand => cases about
      | range => cases about
  · exact fun interpreter program report => Interpreter.exists_interpret_iff

/-! ### A loop behind a function with a loop -/

/-- A function with a loop. -/
def loopingFunction : Definition := ⟨"f", [], [.forLoop 2 "i" (.range 2 ⟨.inclusive, 1, 2⟩) []]⟩

/-- Its definition, and another loop. -/
def twoLoops : Program :=
  [.define 1 "f" loopingFunction.parameters loopingFunction.body,
    .forLoop 5 "i" (.range 5 ⟨.exclusive, 0, 3⟩) []]

/-- The state in which the second loop is given its range. -/
def atSecondLoop : State :=
  ⟨.value (.range ⟨.exclusive, 0, 3⟩), [.iterand 5 "i" [], .statement [], .discard],
    (Machine.start .unlimited).define loopingFunction⟩

/-- The second loop is given a range, and the function of the first one is well formed. -/
theorem parsed_programs_stay_wellFormed_loops :
    parse "def f()\nfor i in 1..2\nend\nend\nfor i in 0...3\nend" = .ok twoLoops ∧
      Stmt.WellFormedAll twoLoops ∧ (∃ past, Recorded Parsed .unlimited past atSecondLoop) ∧
      atSecondLoop.Holds (.function 0 loopingFunction) ∧ loopingFunction.WellFormed ∧
      ∃ range, Value.iterable (.range ⟨.exclusive, 0, 3⟩) = .ok range := by
  have scanned : scan "def f()\nfor i in 1..2\nend\nend\nfor i in 0...3\nend" =
      [.ok ⟨.keyword .defWord, "def", 1⟩, .ok ⟨.identifier, "f", 1⟩,
        .ok ⟨.symbol .leftParen, "(", 1⟩, .ok ⟨.symbol .rightParen, ")", 1⟩,
        .ok ⟨.keyword .forWord, "for", 2⟩, .ok ⟨.identifier, "i", 2⟩,
        .ok ⟨.keyword .inWord, "in", 2⟩, .ok ⟨.range .inclusive, "1..2", 2⟩,
        .ok ⟨.keyword .endWord, "end", 3⟩, .ok ⟨.keyword .endWord, "end", 4⟩,
        .ok ⟨.keyword .forWord, "for", 5⟩, .ok ⟨.identifier, "i", 5⟩,
        .ok ⟨.keyword .inWord, "in", 5⟩, .ok ⟨.range .exclusive, "0...3", 5⟩,
        .ok ⟨.keyword .endWord, "end", 6⟩, .ok (.endOfInput 6)] := by
    decide +kernel
  have accepted : parse "def f()\nfor i in 1..2\nend\nend\nfor i in 0...3\nend" =
      .ok twoLoops := by
    rw [parse, Stream.ofSource, scanned]
    rfl
  have begun : Recorded Parsed .unlimited [] ((Action.interpret twoLoops).begin
      (Interpreter.new .unlimited).machine) := .fresh ⟨_, accepted⟩
  have recorded : ∃ past, Recorded Parsed .unlimited past atSecondLoop :=
    ⟨_, (((((begun.step rfl).step rfl).step rfl).step rfl).step rfl).step rfl⟩
  have held : atSecondLoop.Holds (.function 0 loopingFunction) :=
    .inr (.inr ⟨_, List.mem_cons_self, "f", (Table.get?_insert ..).trans (if_pos rfl)⟩)
  obtain ⟨wellFormed, stays, -⟩ := parsed_programs_stay_wellFormed
  obtain ⟨past, reached⟩ := recorded
  obtain ⟨functions, loops, -⟩ := stays .unlimited past atSecondLoop reached
  exact ⟨accepted, wellFormed _ _ accepted, ⟨past, reached⟩, held, functions _ _ held,
    loops _ _ _ _ _ rfl rfl⟩

end Scriptlet

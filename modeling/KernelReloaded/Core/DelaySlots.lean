/-
Code of a processor whose branches have a delay slot.

What the operations do, and which registers a branch looks at to decide whether it
is taken, is left to the processor.  The instruction behind a branch is executed
before the branch takes effect; behind a likely branch it is executed only when the
branch is taken.  Code is a list of instructions, places in it are indices, and no
place at all is outside of the routine.
-/

import Mathlib.Logic.Function.Basic
import Mathlib.Logic.Relation

namespace KernelReloaded.DelaySlots

inductive Instr (Op Test : Type) where
  | op (op : Op)
  | branch (test : Test) (target : Nat)
  | likely (test : Test) (target : Nat)
  /-- `j $31`. -/
  | jRa

/-- An operation that is not possible ends the run. -/
structure Processor (Op Test Data : Type) where
  exec : Data → Op → Option Data
  taken : Data → Test → Bool

structure State (Data : Type) where
  data : Data
  pc : Option Nat
  /-- The place behind the next instruction. -/
  npc : Option Nat

variable {Op Test Data : Type} (cpu : Processor Op Test Data)

def Processor.execInstr (state : State Data) : Instr Op Test → Option (State Data)
  | .op operation =>
      (cpu.exec state.data operation).map fun data =>
        { data := data, pc := state.npc, npc := state.npc.map (· + 1) }
  | .branch test target =>
      some { state with
        pc := state.npc
        npc :=
          if cpu.taken state.data test then some target
          else state.npc.map (· + 1) }
  | .likely test target =>
      if cpu.taken state.data test then
        some { state with pc := state.npc, npc := some target }
      else
        some { state with
          pc := state.npc.map (· + 1)
          npc := state.npc.map (· + 2) }
  | .jRa => some { state with pc := state.npc, npc := none }

/-- Outside of the code there is no step. -/
def step (code : List (Instr Op Test)) (state : State Data) :
    Option (State Data) :=
  (state.pc.bind fun pc => code[pc]?).bind (cpu.execInstr state)

def Reaches (code : List (Instr Op Test)) : State Data → State Data → Prop :=
  Relation.ReflTransGen fun state next => step cpu code state = some next

/-- The routine has come to its end. -/
def State.Left (state : State Data) : Prop := state.pc = none

/-- The routine comes to its end, and there `ends` holds. -/
def Ends (code : List (Instr Op Test)) (state : State Data)
    (ends : Data → Prop) : Prop :=
  ∃ final, Reaches cpu code state final ∧ final.Left ∧ ends final.data

/-- At a place that is not a delay slot of a branch taken. -/
def State.at (data : Data) (place : Nat) : State Data :=
  { data := data, pc := some place, npc := some (place + 1) }

def execAll : List Op → Data → Option Data
  | [], data => some data
  | op :: ops, data => (cpu.exec data op).bind (execAll ops)

variable {cpu} {code : List (Instr Op Test)} {state : State Data}
  {data next : Data} {place target : Nat} {test : Test}

theorem Reaches.trans {middle last : State Data}
    (first : Reaches cpu code state middle)
    (second : Reaches cpu code middle last) : Reaches cpu code state last :=
  Relation.ReflTransGen.trans first second

theorem step_of_fetch {instr : Instr Op Test}
    (fetched : code[place]? = some instr) (isPlace : state.pc = some place) :
    step cpu code state = cpu.execInstr state instr := by
  rw [step, isPlace, Option.bind_some, fetched, Option.bind_some]

theorem reaches_op {op : Op} (fetched : code[place]? = some (.op op))
    (done : cpu.exec data op = some next) :
    Reaches cpu code (.at data place) (.at next (place + 1)) := by
  apply Relation.ReflTransGen.single
  rw [step_of_fetch fetched rfl, Processor.execInstr, State.at, done]
  rfl

theorem reaches_ops {ops : List Op} {rest : List (Instr Op Test)}
    (found : code.drop place = ops.map .op ++ rest)
    (done : execAll cpu ops data = some next) :
    Reaches cpu code (.at data place) (.at next (place + ops.length)) := by
  induction ops generalizing place data with
  | nil =>
      obtain rfl := Option.some.inj done
      exact .refl
  | cons op ops ih =>
      obtain ⟨middle, first, later⟩ := Option.bind_eq_some_iff.mp done
      have fetched : code[place]? = some (.op op) := by
        rw [← List.head?_drop, found]
        rfl
      have behind : code.drop (place + 1) = ops.map .op ++ rest := by
        rw [← List.drop_drop, found]
        rfl
      have onward := (reaches_op fetched first).trans (ih behind later)
      rw [Nat.add_assoc, Nat.add_comm 1] at onward
      exact onward

theorem execAll_append (first second : List Op) (data : Data) :
    execAll cpu (first ++ second) data =
      (execAll cpu first data).bind (execAll cpu second) := by
  induction first generalizing data with
  | nil => rfl
  | cons op ops ih =>
      rw [List.cons_append, execAll, execAll, Option.bind_assoc]
      congr 1
      funext next
      exact ih next

theorem getElem?_of_drop {rest : List (Instr Op Test)}
    (found : code.drop place = rest) (index : Nat) :
    code[place + index]? = rest[index]? := by
  rw [← found, List.getElem?_drop]

theorem drop_of_drop {rest : List (Instr Op Test)}
    (found : code.drop place = rest) (index : Nat) :
    code.drop (place + index) = rest.drop index := by
  rw [← found, List.drop_drop]

/-- A branch with its delay slot, which is executed in both cases. -/
theorem reaches_branch {slot : Op}
    (fetched : code[place]? = some (.branch test target))
    (delayed : code[place + 1]? = some (.op slot))
    (done : cpu.exec data slot = some next) :
    Reaches cpu code (.at data place)
      (.at next (if cpu.taken data test then target else place + 2)) := by
  refine .tail (.single (step_of_fetch fetched rfl)) ?_
  rw [step_of_fetch delayed rfl, Processor.execInstr, State.at, done]
  split <;> rfl

theorem reaches_likely {slot : Op}
    (fetched : code[place]? = some (.likely test target))
    (delayed : code[place + 1]? = some (.op slot))
    (taken : cpu.taken data test = true)
    (done : cpu.exec data slot = some next) :
    Reaches cpu code (.at data place) (.at next target) := by
  have branched : step cpu code (.at data place) =
      some { data := data, pc := some (place + 1), npc := some target } := by
    rw [step_of_fetch fetched rfl, Processor.execInstr, State.at, if_pos taken]
  refine .tail (.single branched) ?_
  rw [step_of_fetch delayed rfl, Processor.execInstr, done]
  rfl

theorem reaches_unlikely
    (fetched : code[place]? = some (.likely test target))
    (passed : cpu.taken data test = false) :
    Reaches cpu code (.at data place) (.at data (place + 2)) := by
  apply Relation.ReflTransGen.single
  rw [step_of_fetch fetched rfl, Processor.execInstr, State.at,
    if_neg (by simp [passed])]
  rfl

variable {ends : Data → Prop}

theorem Ends.after {middle : State Data} (later : Ends cpu code middle ends)
    (first : Reaches cpu code state middle) : Ends cpu code state ends := by
  obtain ⟨final, reached, left, ended⟩ := later
  exact ⟨final, first.trans reached, left, ended⟩

theorem ends_return {slot : Op} (fetched : code[place]? = some .jRa)
    (delayed : code[place + 1]? = some (.op slot))
    (done : cpu.exec data slot = some next) (ended : ends next) :
    Ends cpu code (.at data place) ends := by
  refine ⟨{ data := next, pc := none, npc := none },
    .tail (.single (step_of_fetch fetched rfl)) ?_, rfl, ended⟩
  rw [step_of_fetch delayed rfl, Processor.execInstr, State.at, done]
  rfl

/-- What no operation of the code changes is not changed by a run. -/
theorem Reaches.keeps {Part : Type} {part : Data → Part} {first last : State Data}
    (reached : Reaches cpu code first last)
    (kept : ∀ op data next, .op op ∈ code → cpu.exec data op = some next →
      part next = part data) : part last.data = part first.data := by
  induction reached with
  | refl => rfl
  | tail _ stepped ih =>
      obtain ⟨instr, fetched, done⟩ := Option.bind_eq_some_iff.mp stepped
      obtain ⟨place, -, isInstr⟩ := Option.bind_eq_some_iff.mp fetched
      rw [← ih]
      cases instr with
      | op operation =>
          obtain ⟨data, executed, rfl⟩ := Option.map_eq_some_iff.mp done
          exact kept operation _ data (List.mem_of_getElem? isInstr) executed
      | branch =>
          cases done
          rfl
      | likely =>
          simp only [Processor.execInstr] at done
          split at done <;> cases done <;> rfl
      | jRa =>
          cases done
          rfl

/-- A loop whose rounds count down comes to its exit. -/
theorem reaches_loop {holds : Nat → Data → Prop} {entry exit : Nat} (count : Nat)
    (round : ∀ left < count, ∀ data, holds (left + 1) data →
      ∃ next, Reaches cpu code (.at data entry)
          (.at next (if left = 0 then exit else entry)) ∧ holds left next)
    (start : holds count data) :
    ∃ next, Reaches cpu code (.at data (if count = 0 then exit else entry))
        (.at next exit) ∧ holds 0 next := by
  induction count generalizing data with
  | zero => exact ⟨data, .refl, start⟩
  | succ count ih =>
      obtain ⟨middle, reached, held⟩ :=
        round count (Nat.lt_succ_self count) data start
      obtain ⟨next, done, ended⟩ :=
        ih (fun left below => round left (Nat.lt_succ_of_lt below)) held
      exact ⟨next, reached.trans done, ended⟩

/-- A loop whose rounds count down to the end of what is left. -/
theorem ends_rounds {holds : Nat → Data → Prop} {entry : Nat}
    (round : ∀ left data, holds left data →
      (∃ next less, less < left ∧ holds less next ∧
        Reaches cpu code (.at data entry) (.at next entry)) ∨
      Ends cpu code (.at data entry) ends)
    {left : Nat} (start : holds left data) :
    Ends cpu code (.at data entry) ends := by
  induction left using Nat.strongRecOn generalizing data with
  | _ left ih =>
      rcases round left data start with ⟨next, less, below, held, again⟩ | ended
      · exact (ih less below held).after again
      · exact ended

end KernelReloaded.DelaySlots

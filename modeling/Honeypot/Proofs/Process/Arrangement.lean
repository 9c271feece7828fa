import Honeypot.Proofs.Process.Orderly

/-!
# Programs and the order of the environment

A program is told the environment as a list of texts, in whatever order that is. Orderly programs
go alike under all orders of an environment in which no name passes for another one that commands
look up.

* `Process.relisted`: a process that lists its environment in another order.
* `Process.MayList`: whether that tells commands nothing new.
* `Program.Orderly.run_relisted`, `Registry.IsOrderly.execute_relisted`: then orderly programs and
  commands go alike.

## References

- [SPEC] `SPEC_FULL.md`: §3, Data Model
-/

namespace Honeypot

/-- The order in which names first came in, from the last one back. -/
def Arrangement.reversed : Arrangement := ⟨List.reverse, List.reverse_perm⟩

/-- The process with its environment listed in another order. -/
def Process.relisted (process : Process) (order : Arrangement) : Process :=
  { process with arrangement := order }

/-- Whether it tells commands nothing new when the environment is listed in an order: it is listed
so already, or no name passes for one that they look up. -/
def Process.MayList (process : Process) (order : Arrangement) : Prop :=
  process.arrangement = order ∨ process.environment.IsHonest

variable {α : Type}

/-! ## Machines -/

variable {σ : Type}

/-- The machine with its environment listed in another order. -/
def Machine.relisted (machine : Machine σ) (order : Arrangement) : Machine σ :=
  { machine with process := machine.process.relisted order }

/-- A machine, and the same one with its environment listed in an order that tells commands nothing
new. -/
structure Machine.Relisted (order : Arrangement) (one other : Machine σ) : Prop where
  mayList : one.process.MayList order
  eq : other = one.relisted order

/-- Moving has nothing to do with the environment. -/
theorem Process.changeDirectory_relisted (process : Process) (order : Arrangement)
    (path : String) :
    (process.relisted order).changeDirectory path =
        ((process.changeDirectory path).1, (process.changeDirectory path).2.relisted order) ∧
      (process.MayList order → (process.changeDirectory path).2.MayList order) := by
  unfold changeDirectory relisted
  dsimp only
  cases process.volume.isDirectory (Location.join process.directory path) with
  | error failure => exact ⟨rfl, id⟩
  | ok isDirectory =>
    cases isDirectory with
    | true => exact ⟨rfl, id⟩
    | false => exact ⟨rfl, id⟩

/-- A variable whose name holds no equals sign may be set. -/
theorem Process.MayList.assign {process : Process} {order : Arrangement}
    (h : process.MayList order) {key : String} (hkey : '=' ∉ key.toList) (value : String) :
    (process.assign key value).MayList order :=
  h.imp id fun hhonest => hhonest.insert hkey value

variable (order : Arrangement)

/-- What streams do has nothing to do with the environment. -/
theorem Machine.stream_relisted (action : σ → α × σ) :
    Alike (Relisted order) (fun machine => machine.stream action)
      (fun machine => machine.stream action) := by
  rintro machine _ ⟨hmayList, rfl⟩
  exact ⟨rfl, hmayList, rfl⟩

variable [Supply σ]

/-- Calls that have nothing to do with variables get the same answers. -/
theorem Machine.answer_relisted (streams : Streams σ) {request : Call} (h : request.IsQuiet) :
    Alike (Relisted order) (fun machine => machine.answer streams request)
      (fun machine => machine.answer streams request) := by
  rintro machine _ ⟨hmayList, rfl⟩
  cases request with
  | environ | assign => exact h.elim
  | changeDirectory path =>
    obtain ⟨hmoved, hlater⟩ := machine.process.changeDirectory_relisted order path
    exact ⟨(congrArg Prod.fst hmoved).symm, hlater hmayList,
      congrArg (fun process => { machine with process }) (congrArg Prod.snd hmoved)⟩
  | _ => exact ⟨rfl, hmayList, rfl⟩

/-- An orderly program goes alike under all orders that tell it nothing new. -/
theorem Program.Orderly.run_relisted {stopped : α → Prop} {program : Program α}
    (h : program.Orderly stopped) (streams : Streams σ) :
    Alike (Machine.Relisted order) (program.run streams) (program.run streams) := by
  induction h with
  | done result => exact fun _ _ hrelisted => ⟨rfl, hrelisted⟩
  | @print bytes next hfault _ ih =>
    intro machine machine' hrelisted
    have hprint := Machine.stream_relisted order (streams.output.lineFeeds.writeAll bytes)
      machine machine' hrelisted
    rw [run_print, run_print]
    dsimp only at hprint
    -- Nothing is known of the two prints but what they have in common.
    generalize machine.stream (streams.output.lineFeeds.writeAll bytes) = step at hprint ⊢
    generalize machine'.stream (streams.output.lineFeeds.writeAll bytes) = step' at hprint ⊢
    obtain ⟨answer, later⟩ := step
    obtain ⟨answer', later'⟩ := step'
    obtain ⟨rfl, hlater⟩ : answer = answer' ∧ Machine.Relisted order later later' := hprint
    cases answer with
    | ok _ => exact ih later later' hlater
    | error fault =>
      obtain ⟨result, hresult, -⟩ := hfault fault
      dsimp only
      rw [hresult]
      exact ⟨rfl, hlater⟩
  | @environ next hstable _ ih =>
    rintro machine _ ⟨hmayList, rfl⟩
    -- The two lists may differ, but not in what the program does after them.
    have hnext : next machine.process.environ = next (machine.process.relisted order).environ := by
      rcases hmayList with rfl | hhonest
      · rfl
      · exact hstable _ hhonest _ _ machine.process.environ_perm
          (machine.process.relisted order).environ_perm
    show _ = ((next (machine.process.relisted order).environ).run streams _).1 ∧
      Machine.Relisted order _ ((next (machine.process.relisted order).environ).run streams _).2
    rw [← hnext]
    exact ih _ machine _ ⟨hmayList, rfl⟩
  | assign hkey _ ih =>
    rintro machine _ ⟨hmayList, rfl⟩
    exact ih _ _ ⟨hmayList.assign hkey _, rfl⟩
  | quiet hquiet _ ih =>
    intro machine machine' hrelisted
    obtain ⟨hanswer, hlater⟩ :=
      Machine.answer_relisted order streams hquiet machine machine' hrelisted
    dsimp only at hanswer hlater
    rw [run, run, ← hanswer]
    exact ih _ _ _ hlater

/-- Orderly commands go alike under all orders that tell them nothing new. -/
theorem Registry.IsOrderly.execute_relisted {registry : Registry} (h : registry.IsOrderly)
    (streams : Streams σ) (observer : Option (Duplex σ)) (path : String) (args : List String) :
    Alike (Machine.Relisted order) (registry.execute streams observer path args)
      (registry.execute streams observer path args) := by
  rw [h.execute_boundTo]
  intro machine machine' hrelisted
  cases hcommand : registry.find? (Path.baseName path) with
  | none =>
    rw [execute_of_find?_eq_none hcommand, execute_of_find?_eq_none hcommand]
    exact ⟨rfl, hrelisted⟩
  | some command =>
    have horderly := h _ command hcommand args
    obtain ⟨status, later, hrun⟩ := horderly.exists_run_eq (streams.boundTo observer) machine
    obtain ⟨later', hrun', hlater⟩ := (horderly.run_relisted order _).of_eq hrelisted hrun
    have hbound : (streams.boundTo observer).boundTo none = streams.boundTo observer := rfl
    rw [execute_of_find? hcommand, execute_of_find? hcommand, hbound, hrun, hrun']
    exact ⟨rfl, hlater⟩

end Honeypot

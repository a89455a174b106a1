import Mathlib.Algebra.Group.Basic
import Mathlib.Data.List.Nodup
import Mathlib.Logic.Function.Basic

/-!
Programs that share one state. Each of them queries it some times and then ends with one
transaction, and between two accesses of one the others go on. Two rules for all the
interleavings: an invariant that every transaction keeps, whatever was done since the
queries it rests on, and a serial order that leaves the same state but for the order in
which things were added to it.
-/

namespace Dvrft.Sessions

variable {σ : Type*}

/-- A transaction that answers `none` is rolled back. -/
inductive Program (σ : Type*) where
  | done
  | query (next : σ → Program σ)
  | commit (transaction : σ → Option σ)

namespace Program

def isDone : Program σ → Bool
  | done => true
  | query _ => false
  | commit _ => false

/-- One access. -/
def step : Program σ → σ → Program σ × σ
  | done, s => (done, s)
  | query next, s => (next s, s)
  | commit transaction, s => (done, (transaction s).getD s)

/-- All accesses, one right after the other. -/
def run : Program σ → σ → σ
  | done, s => s
  | query next, s => (next s).run s
  | commit transaction, s => (transaction s).getD s

/-- What is computed between two accesses; a failure ends the program. -/
def given {ε α : Type*} (outcome : Except ε α) (next : α → Program σ) : Program σ :=
  match outcome with
  | .error _ => done
  | .ok a => next a

theorem run_query (next : σ → Program σ) (s : σ) : (query next).run s = (next s).run s := rfl

theorem run_step (p : Program σ) (s : σ) : (p.step s).1.run (p.step s).2 = p.run s := by
  cases p <;> rfl

theorem isDone_iff {p : Program σ} : p.isDone = true ↔ p = done := by
  cases p <;> simp [isDone]

/-- A program that has not ended has changed nothing. -/
theorem step_state {p : Program σ} {s : σ} (h : (p.step s).1.isDone = false) :
    (p.step s).2 = s := by
  cases p with
  | done => rfl
  | query next => rfl
  | commit transaction => cases h

end Program

open Program

structure System (ι σ : Type*) where
  state : σ
  running : ι → Program σ

variable {ι : Type*}

/-- One access of program `i`. -/
def System.step [DecidableEq ι] (sys : System ι σ) (i : ι) : System ι σ where
  state := ((sys.running i).step sys.state).2
  running := Function.update sys.running i ((sys.running i).step sys.state).1

def System.runs [DecidableEq ι] (sys : System ι σ) (schedule : List ι) : System ι σ :=
  schedule.foldl System.step sys

theorem System.running_step_self [DecidableEq ι] (sys : System ι σ) (i : ι) :
    (sys.step i).running i = ((sys.running i).step sys.state).1 :=
  Function.update_self ..

theorem System.running_step_of_ne [DecidableEq ι] (sys : System ι σ) {i j : ι} (h : j ≠ i) :
    (sys.step i).running j = sys.running j :=
  Function.update_of_ne h ..

/-- What has ended stays so. -/
theorem System.runs_done [DecidableEq ι] {sys : System ι σ} {i : ι} (h : sys.running i = done)
    (schedule : List ι) : (sys.runs schedule).running i = done := by
  induction schedule generalizing sys with
  | nil => exact h
  | cons j rest ih =>
    apply ih
    by_cases hij : i = j
    · subst hij
      rw [running_step_self, h]
      rfl
    · rw [running_step_of_ne sys hij, h]

theorem System.runs_unscheduled [DecidableEq ι] {sys : System ι σ} {i : ι} {schedule : List ι}
    (h : i ∉ schedule) : (sys.runs schedule).running i = sys.running i := by
  induction schedule generalizing sys with
  | nil => rfl
  | cons j rest ih =>
    obtain ⟨hij, hrest⟩ := List.ne_and_not_mem_of_not_mem_cons h
    exact (ih hrest).trans (running_step_of_ne sys hij)

variable {later : σ → σ → Prop}

section Keeping

variable {I : σ → Prop}

/-- From a state on that only gets later, the program keeps `I` and makes the state later
itself. -/
inductive Keeps (later : σ → σ → Prop) (I : σ → Prop) : σ → Program σ → Prop
  | done (s : σ) : Keeps later I s .done
  | query {s : σ} {next : σ → Program σ}
      (h : ∀ s', later s s' → I s' → Keeps later I s' (next s')) : Keeps later I s (.query next)
  | commit {s : σ} {transaction : σ → Option σ}
      (h : ∀ s' s'', later s s' → I s' → transaction s' = some s'' → later s' s'' ∧ I s'') :
      Keeps later I s (.commit transaction)

theorem keeps_given {ε α : Type*} {s : σ} {outcome : Except ε α} {next : α → Program σ}
    (h : ∀ a, outcome = .ok a → Keeps later I s (next a)) :
    Keeps later I s (given outcome next) := by
  cases outcome with
  | error e => exact .done s
  | ok a => exact h a rfl

theorem Keeps.mono [IsTrans σ later] {s s' : σ} {p : Program σ} (h : Keeps later I s p)
    (hs : later s s') : Keeps later I s' p := by
  cases h with
  | done => exact .done s'
  | query hnext => exact .query fun t ht hI => hnext t (trans_of later hs ht) hI
  | commit hleft => exact .commit fun t t' ht hI => hleft t t' (trans_of later hs ht) hI

theorem Keeps.step [Std.Refl later] {s : σ} {p : Program σ} (h : Keeps later I s p)
    (hI : I s) :
    later s (p.step s).2 ∧ I (p.step s).2 ∧ Keeps later I (p.step s).2 (p.step s).1 := by
  cases h with
  | done => exact ⟨refl_of later s, hI, .done s⟩
  | query hnext => exact ⟨refl_of later s, hI, hnext s (refl_of later s) hI⟩
  | @commit _ transaction hleft =>
    have hstep : (Program.commit transaction).step s = (.done, (transaction s).getD s) := rfl
    rw [hstep]
    cases ht : transaction s with
    | none => exact ⟨refl_of later s, hI, .done s⟩
    | some t =>
      obtain ⟨hlater, hI'⟩ := hleft s t (refl_of later s) hI ht
      exact ⟨hlater, hI', .done t⟩

/-- The invariant holds after every interleaving. -/
theorem keeps_runs [Std.Refl later] [IsTrans σ later] [DecidableEq ι] {sys : System ι σ}
    (h : ∀ i, Keeps later I sys.state (sys.running i)) (hI : I sys.state) (schedule : List ι) :
    I (sys.runs schedule).state := by
  induction schedule generalizing sys with
  | nil => exact hI
  | cons i rest ih =>
    obtain ⟨hlater, hI', hnext⟩ := (h i).step hI
    refine @ih (sys.step i) (fun j => ?_) hI'
    by_cases hji : j = i
    · subst hji
      rw [System.running_step_self]
      exact hnext
    · rw [System.running_step_of_ne sys hji]
      exact (h j).mono hlater

end Keeping

section Serial

variable {κ M : Type*} [AddCommMonoid M] {core : σ → κ} {load : σ → M}

/-- The same core, and the same load. -/
structure Alike (core : σ → κ) (load : σ → M) (s s' : σ) : Prop where
  core : core s = core s'
  load : load s = load s'

/-- The program adds `m` to the load, whenever it comes to its transaction, and leaves the
core as it is. -/
inductive Adds (later : σ → σ → Prop) (core : σ → κ) (load : σ → M) (m : M) :
    σ → Program σ → Prop
  | done {s : σ} (h : m = 0) : Adds later core load m s .done
  | query {s : σ} {next : σ → Program σ}
      (h : ∀ s', later s s' → Adds later core load m s' (next s')) :
      Adds later core load m s (.query next)
  | commit {s : σ} {transaction : σ → Option σ}
      (h : ∀ s', later s s' → later s' ((transaction s').getD s') ∧
        core ((transaction s').getD s') = core s' ∧
        load ((transaction s').getD s') = load s' + m) :
      Adds later core load m s (.commit transaction)

/-- What the program does is settled by the core that its first access finds. -/
inductive Orderly (later : σ → σ → Prop) (core : σ → κ) (load : σ → M) (s : σ) :
    Program σ → Prop
  | done : Orderly later core load s .done
  | query {next : σ → Program σ}
      (h : ∀ t t', later s t → later s t' → core t = core t' →
        ∃ m, Adds later core load m t (next t) ∧ Adds later core load m t' (next t')) :
      Orderly later core load s (.query next)
  | commit {transaction : σ → Option σ}
      (h : ∀ t t', later s t → later s t' → core t = core t' →
        later t ((transaction t).getD t) ∧
        core ((transaction t).getD t) = core ((transaction t').getD t') ∧
        ∃ m, load ((transaction t).getD t) = load t + m ∧
          load ((transaction t').getD t') = load t' + m) :
      Orderly later core load s (.commit transaction)

theorem Adds.mono [IsTrans σ later] {m : M} {s s' : σ}
    {p : Program σ} (h : Adds later core load m s p) (hs : later s s') :
    Adds later core load m s' p := by
  cases h with
  | done hm => exact .done hm
  | query hnext => exact .query fun t ht => hnext t (trans_of later hs ht)
  | commit hleft => exact .commit fun t ht => hleft t (trans_of later hs ht)

theorem Adds.run [Std.Refl later] {m : M} {s : σ} {p : Program σ}
    (h : Adds later core load m s p) {s' : σ} (hs : later s s') :
    later s' (p.run s') ∧ core (p.run s') = core s' ∧ load (p.run s') = load s' + m := by
  induction h generalizing s' with
  | done hm => exact ⟨refl_of later s', rfl, by rw [hm, add_zero, Program.run]⟩
  | query _ ih => exact ih s' hs (refl_of later s')
  | commit hleft => exact hleft s' hs

theorem Adds.orderly {m : M} {s : σ} {p : Program σ} (h : Adds later core load m s p) :
    Orderly later core load s p := by
  cases h with
  | done _ => exact .done
  | query hnext => exact .query fun t t' ht ht' _ => ⟨m, hnext t ht, hnext t' ht'⟩
  | commit hleft =>
    refine .commit fun t t' ht ht' hcore => ?_
    obtain ⟨hlater, hsame, hload⟩ := hleft t ht
    obtain ⟨-, hsame', hload'⟩ := hleft t' ht'
    exact ⟨hlater, hsame.trans (hcore.trans hsame'.symm), m, hload, hload'⟩

theorem Orderly.mono [IsTrans σ later] {s s' : σ} {p : Program σ}
    (h : Orderly later core load s p) (hs : later s s') : Orderly later core load s' p := by
  cases h with
  | done => exact .done
  | query hnext =>
    exact .query fun t t' ht ht' => hnext t t' (trans_of later hs ht) (trans_of later hs ht')
  | commit hleft =>
    exact .commit fun t t' ht ht' => hleft t t' (trans_of later hs ht) (trans_of later hs ht')

/-- Run alone, an orderly program does the same from states of one core. -/
theorem Orderly.run [Std.Refl later] {s : σ} {p : Program σ} (h : Orderly later core load s p)
    {t t' : σ} (ht : later s t) (ht' : later s t') (hcore : core t = core t') :
    later t (p.run t) ∧ core (p.run t) = core (p.run t') ∧
      ∃ m, load (p.run t) = load t + m ∧ load (p.run t') = load t' + m := by
  cases h with
  | done => exact ⟨refl_of later t, hcore, 0, (add_zero _).symm, (add_zero _).symm⟩
  | query hnext =>
    obtain ⟨m, hadds, hadds'⟩ := hnext t t' ht ht' hcore
    obtain ⟨hlater, hsame, hload⟩ := hadds.run (refl_of later t)
    obtain ⟨-, hsame', hload'⟩ := hadds'.run (refl_of later t')
    exact ⟨hlater, hsame.trans (hcore.trans hsame'.symm), m, hload, hload'⟩
  | commit hleft => exact hleft t t' ht ht' hcore

/-- After its first access an orderly program has something settled to add. -/
theorem Orderly.step [Std.Refl later] {s : σ} {p : Program σ} (h : Orderly later core load s p) :
    later s (p.step s).2 ∧ ∃ m, Adds later core load m (p.step s).2 (p.step s).1 := by
  cases h with
  | done => exact ⟨refl_of later s, 0, .done rfl⟩
  | query hnext =>
    obtain ⟨m, hadds, -⟩ := hnext s s (refl_of later s) (refl_of later s) rfl
    exact ⟨refl_of later s, m, hadds⟩
  | commit hleft => exact ⟨(hleft s s (refl_of later s) (refl_of later s) rfl).1, 0, .done rfl⟩

/-- One program after the other, each of them alone. -/
def serial (running : ι → Program σ) (order : List ι) (s : σ) : σ :=
  order.foldl (fun s i => (running i).run s) s

theorem serial_congr {running running' : ι → Program σ} {order : List ι}
    (h : ∀ i ∈ order, running i = running' i) (s : σ) :
    serial running order s = serial running' order s := by
  induction order generalizing s with
  | nil => rfl
  | cons i rest ih =>
    obtain ⟨hi, hrest⟩ := List.forall_mem_cons.mp h
    unfold serial at ih ⊢
    rw [List.foldl_cons, List.foldl_cons, hi]
    exact ih hrest _

variable {running : ι → Program σ} {base : σ}

/-- States that are alike are so after the same programs. -/
theorem Alike.serial [Std.Refl later] [IsTrans σ later]
    (h : ∀ i, Orderly later core load base (running i)) {s s' : σ} (hs : later base s)
    (hs' : later base s') (halike : Alike core load s s') (order : List ι) :
    Alike core load (Sessions.serial running order s) (Sessions.serial running order s') := by
  induction order generalizing s s' with
  | nil => exact halike
  | cons i rest ih =>
    obtain ⟨hlater, hcore, m, hload, hload'⟩ := (h i).run hs hs' halike.core
    have hlater' := ((h i).run hs' hs halike.core.symm).1
    exact ih (trans_of later hs hlater) (trans_of later hs' hlater')
      ⟨hcore, by rw [hload, hload', halike.load]⟩

/-- A program with something settled to add may go first. -/
theorem alike_front [Std.Refl later] [IsTrans σ later] [DecidableEq ι]
    (h : ∀ i, Orderly later core load base (running i)) {i : ι} {m : M} {s : σ}
    (hs : later base s) (hadds : Adds later core load m s (running i)) {order : List ι}
    (hi : i ∈ order) :
    Alike core load (serial running order s) (serial running (i :: order.erase i) s) := by
  induction order generalizing s with
  | nil => cases hi
  | cons j rest ih =>
    by_cases hij : j = i
    · subst hij
      rw [List.erase_cons_head]
      exact ⟨rfl, rfl⟩
    · have hrest : i ∈ rest := (List.mem_cons.mp hi).resolve_left (Ne.symm hij)
      obtain ⟨hlaterI, hcoreI, hloadI⟩ := hadds.run (refl_of later s)
      obtain ⟨hlaterJ, hcoreJ, n, hloadJ, hloadJ'⟩ :=
        (h j).run hs (trans_of later hs hlaterI) hcoreI.symm
      obtain ⟨hlaterJI, hcoreJI, hloadJI⟩ := hadds.run hlaterJ
      have hlaterIJ := ((h j).run (trans_of later hs hlaterI) hs hcoreI).1
      have hswap : Alike core load ((running i).run ((running j).run s))
          ((running j).run ((running i).run s)) :=
        ⟨hcoreJI.trans hcoreJ, by rw [hloadJI, hloadJ, hloadJ', hloadI, add_right_comm]⟩
      have hfirst := ih (trans_of later hs hlaterJ) (hadds.mono hlaterJ) hrest
      have hothers := hswap.serial h (trans_of later (trans_of later hs hlaterJ) hlaterJI)
        (trans_of later (trans_of later hs hlaterI) hlaterIJ) (rest.erase i)
      rw [List.erase_cons_tail (by simpa using hij)]
      exact ⟨hfirst.core.trans hothers.core, hfirst.load.trans hothers.load⟩

/-- After every interleaving, the programs that have ended could have run one after the
other. -/
theorem serializable [Std.Refl later] [IsTrans σ later] [DecidableEq ι] {sys : System ι σ}
    (h : ∀ i, Orderly later core load sys.state (sys.running i)) (schedule : List ι) :
    ∃ order : List ι, order.Nodup ∧
      (∀ i, i ∈ order ↔ i ∈ schedule ∧ ((sys.runs schedule).running i).isDone = true) ∧
      Alike core load (sys.runs schedule).state (serial sys.running order sys.state) := by
  induction schedule generalizing sys with
  | nil => exact ⟨[], List.nodup_nil, by simp, rfl, rfl⟩
  | cons i rest ih =>
    obtain ⟨hlater, m, hadds⟩ := (h i).step
    have hstep : ∀ j, Orderly later core load (sys.step i).state ((sys.step i).running j) := by
      intro j
      by_cases hji : j = i
      · subst hji
        rw [System.running_step_self]
        exact hadds.orderly
      · rw [System.running_step_of_ne sys hji]
        exact (h j).mono hlater
    obtain ⟨order, hnodup, hmem, halike⟩ := ih hstep
    have hruns : sys.runs (i :: rest) = (sys.step i).runs rest := rfl
    rw [hruns]
    cases hended : (((sys.step i).runs rest).running i).isDone with
    | false =>
      -- program `i` has only queried: it changed nothing, and has no place in the order
      have hout : i ∉ order := fun hi => by simpa [hended] using ((hmem i).mp hi).2
      have hgoing : ((sys.running i).step sys.state).1.isDone = false := by
        rw [← System.running_step_self, ← Bool.not_eq_true, isDone_iff]
        intro hdone
        rw [System.runs_done hdone] at hended
        cases hended
      refine ⟨order, hnodup, fun j => ?_, ?_⟩
      · rw [hmem j, List.mem_cons]
        constructor
        · exact fun ⟨hj, hdone⟩ => ⟨.inr hj, hdone⟩
        · rintro ⟨rfl | hj, hdone⟩
          · simp [hended] at hdone
          · exact ⟨hj, hdone⟩
      · have hstate : (sys.step i).state = sys.state := step_state hgoing
        have hsame : ∀ j ∈ order, (sys.step i).running j = sys.running j := fun j hj =>
          System.running_step_of_ne sys fun hji => hout (by rwa [hji] at hj)
        rwa [hstate, serial_congr hsame] at halike
    | true =>
      refine ⟨i :: order.erase i, ?_, fun j => ?_, ?_⟩
      · exact List.nodup_cons.mpr ⟨hnodup.not_mem_erase, hnodup.erase i⟩
      · by_cases hji : j = i
        · subst hji
          simp [hended]
        · rw [List.mem_cons, List.mem_erase_of_ne hji, hmem j, List.mem_cons]
          simp [hji]
      · -- program `i` goes first: all that is left of it then adds what is settled
        have hfront : Alike core load (serial (sys.step i).running order (sys.step i).state)
            (serial (sys.step i).running (i :: order.erase i) (sys.step i).state) := by
          by_cases hi : i ∈ order
          · rw [← System.running_step_self] at hadds
            exact alike_front hstep (refl_of later _) hadds hi
          · have hunscheduled : i ∉ rest := fun hrest => hi ((hmem i).mpr ⟨hrest, hended⟩)
            rw [System.runs_unscheduled hunscheduled, isDone_iff] at hended
            rw [List.erase_of_not_mem hi]
            unfold serial
            rw [List.foldl_cons, hended]
            exact ⟨rfl, rfl⟩
        have hrun : ((sys.step i).running i).run (sys.step i).state =
            (sys.running i).run sys.state := by
          rw [System.running_step_self]
          exact run_step ..
        have hsame : serial (sys.step i).running (i :: order.erase i) (sys.step i).state =
            serial sys.running (i :: order.erase i) sys.state := by
          unfold serial
          rw [List.foldl_cons, List.foldl_cons, hrun]
          exact serial_congr (fun j hj => System.running_step_of_ne sys
            fun hji => hnodup.not_mem_erase (by rwa [hji] at hj)) _
        rw [hsame] at hfront
        exact ⟨halike.core.trans hfront.core, halike.load.trans hfront.load⟩

end Serial

end Dvrft.Sessions

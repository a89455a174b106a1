import Dvrft.StartCodes
import Mathlib.Data.Nat.Find
import Mathlib.Tactic.IntervalCases

/-!
Start codes by position. Two zeros and a one are a code wherever they stand, together
with a zero in front of them if there is one; on their own they need a byte behind
them. The scan finds exactly these codes: what it skips is a whole code, and a whole
code ends with a one.
-/

namespace Dvrft.StartCodes

/-- Two zeros and a one begin at `q`. -/
def PatternAt (xs : List UInt8) (q : ℕ) : Prop :=
  xs[q]? = some 0 ∧ xs[q + 1]? = some 0 ∧ xs[q + 2]? = some 1

/-- A zero stands in front of `q`. -/
def ZeroBefore (xs : List UInt8) (q : ℕ) : Prop := 0 < q ∧ xs[q - 1]? = some 0

/-- A code of `n` bytes begins at `p`. -/
def CodeAt (xs : List UInt8) (p n : ℕ) : Prop :=
  ∃ q, PatternAt xs q ∧
    ((ZeroBefore xs q ∧ q = p + 1 ∧ n = 4) ∨
      (¬ ZeroBefore xs q ∧ q + 3 < xs.length ∧ q = p ∧ n = 3))

theorem PatternAt.lt {xs : List UInt8} {q : ℕ} (h : PatternAt xs q) : q + 2 < xs.length := by
  obtain ⟨-, -, hone⟩ := h
  exact (List.getElem?_eq_some_iff.mp hone).1

theorem patternAt_append {front rest : List UInt8} {q : ℕ} :
    PatternAt (front ++ rest) (front.length + q) ↔ PatternAt rest q := by
  have hplace : ∀ i, (front ++ rest)[front.length + q + i]? = rest[q + i]? := by
    intro i
    rw [Nat.add_assoc, List.getElem?_append_right (Nat.le_add_right _ _), Nat.add_sub_cancel_left]
  have hzero := hplace 0
  unfold PatternAt
  rw [← hplace 1, ← hplace 2, ← Nat.add_zero (front.length + q), hzero, Nat.add_zero q]

theorem zeroBefore_append_succ {front rest : List UInt8} {q : ℕ} :
    ZeroBefore (front ++ rest) (front.length + (q + 1)) ↔ ZeroBefore rest (q + 1) := by
  unfold ZeroBefore
  rw [← Nat.add_assoc, Nat.add_sub_cancel, Nat.add_sub_cancel,
    List.getElem?_append_right (Nat.le_add_right _ _), Nat.add_sub_cancel_left]
  simp

/-- What is in a piece of the bytes is at its place in them. -/
theorem patternAt_piece {xs : List UInt8} {start length i : ℕ} (h : i + 2 < length) :
    PatternAt ((xs.drop start).take length) i ↔ PatternAt xs (start + i) := by
  unfold PatternAt
  rw [List.getElem?_take_of_lt (by omega), List.getElem?_take_of_lt (by omega),
    List.getElem?_take_of_lt (by omega), List.getElem?_drop, List.getElem?_drop,
    List.getElem?_drop, ← Nat.add_assoc, ← Nat.add_assoc]

/-- Bytes that do not end in front of a code with a zero leave the codes behind them
as they are. -/
theorem codeAt_append {front rest : List UInt8}
    (hend : front.getLast? ≠ some 0 ∨ ¬ PatternAt rest 0) {p n : ℕ} :
    CodeAt (front ++ rest) (front.length + p) n ↔ CodeAt rest p n := by
  have hfirst : PatternAt rest 0 → ¬ ZeroBefore (front ++ rest) (front.length + 0) := by
    intro hpattern hzero
    obtain ⟨hpos, hbefore⟩ := hzero
    rw [Nat.add_zero] at hpos hbefore
    rw [List.getElem?_append_left (by omega), ← List.getLast?_eq_getElem?] at hbefore
    rcases hend with hend | hend
    · exact hend hbefore
    · exact hend hpattern
  constructor
  · intro h
    obtain ⟨q, hpattern, ⟨hzero, rfl, rfl⟩ | ⟨hbare, hspare, rfl, rfl⟩⟩ := h
    · rw [Nat.add_assoc] at hpattern hzero
      exact ⟨p + 1, patternAt_append.mp hpattern,
        .inl ⟨zeroBefore_append_succ.mp hzero, rfl, rfl⟩⟩
    · refine ⟨p, patternAt_append.mp hpattern, .inr ⟨?_, ?_, rfl, rfl⟩⟩
      · cases p with
        | zero => exact fun hzero => absurd hzero.1 (Nat.lt_irrefl 0)
        | succ p => exact fun hzero => hbare (zeroBefore_append_succ.mpr hzero)
      · rw [List.length_append] at hspare
        omega
  · intro h
    obtain ⟨q, hpattern, ⟨hzero, rfl, rfl⟩ | ⟨hbare, hspare, rfl, rfl⟩⟩ := h
    · refine ⟨front.length + (p + 1), patternAt_append.mpr hpattern,
        .inl ⟨zeroBefore_append_succ.mpr hzero, by omega, rfl⟩⟩
    · refine ⟨front.length + q, patternAt_append.mpr hpattern, .inr ⟨?_, ?_, rfl, rfl⟩⟩
      · cases q with
        | zero => exact hfirst hpattern
        | succ q => exact fun hzero => hbare (zeroBefore_append_succ.mp hzero)
      · rw [List.length_append]
        omega

/-- The code that begins a stream. -/
theorem codeAt_zero {a b c d : UInt8} {rest : List UInt8} {n : ℕ} :
    CodeAt (a :: b :: c :: d :: rest) 0 n ↔
      (a = 0 ∧ b = 0 ∧ c = 0 ∧ d = 1 ∧ n = 4) ∨ (a = 0 ∧ b = 0 ∧ c = 1 ∧ n = 3) := by
  constructor
  · intro h
    obtain ⟨q, ⟨hfirst, hsecond, hthird⟩, ⟨⟨-, hbefore⟩, rfl, rfl⟩ | ⟨-, -, rfl, rfl⟩⟩ := h
    · simp_all
    · simp_all
  · intro h
    rcases h with ⟨rfl, rfl, rfl, rfl, rfl⟩ | ⟨rfl, rfl, rfl, rfl⟩
    · exact ⟨1, ⟨rfl, rfl, rfl⟩, .inl ⟨⟨Nat.one_pos, rfl⟩, rfl, rfl⟩⟩
    · refine ⟨0, ⟨rfl, rfl, rfl⟩, .inr ⟨?_, ?_, rfl, rfl⟩⟩
      · intro hzero
        exact Nat.lt_irrefl 0 hzero.1
      · simp

/-- A byte that does not make a code of four bytes leaves the codes behind it. -/
theorem codeAt_cons_succ {a b c d : UInt8} {rest : List UInt8}
    (h : ¬ (a = 0 ∧ b = 0 ∧ c = 0 ∧ d = 1)) {p n : ℕ} :
    CodeAt (a :: b :: c :: d :: rest) (p + 1) n ↔ CodeAt (b :: c :: d :: rest) p n := by
  have hend : [a].getLast? ≠ some 0 ∨ ¬ PatternAt (b :: c :: d :: rest) 0 := by
    by_cases ha : a = 0
    · right
      intro hpattern
      obtain ⟨hb, hc, hd⟩ := hpattern
      simp only [List.getElem?_cons_zero, List.getElem?_cons_succ, Option.some.injEq,
        Nat.zero_add] at hb hc hd
      exact h ⟨ha, hb, hc, hd⟩
    · left
      simpa using ha
  have hbehind : CodeAt ([a] ++ b :: c :: d :: rest) ([a].length + p) n ↔
      CodeAt (b :: c :: d :: rest) p n := codeAt_append hend
  rw [List.length_singleton, Nat.add_comm 1] at hbehind
  exact hbehind

/-- Inside a code no other begins. -/
theorem not_codeAt_inside {front rest : List UInt8} {p n : ℕ}
    (hfront : front = [0, 0, 0, 1] ∨ front = [0, 0, 1]) (hpos : 0 < p)
    (hlt : p < front.length) : ¬ CodeAt (front ++ rest) p n := by
  intro h
  obtain ⟨q, ⟨hfirst, hsecond, hthird⟩, ⟨⟨-, hbefore⟩, rfl, rfl⟩ | ⟨hbare, -, rfl, rfl⟩⟩ := h
  · rcases hfront with rfl | rfl
    · simp only [List.length_cons, List.length_nil] at hlt
      interval_cases p <;> simp_all
    · simp only [List.length_cons, List.length_nil] at hlt
      interval_cases p <;> simp_all
  · rcases hfront with rfl | rfl
    · simp only [List.length_cons, List.length_nil] at hlt
      interval_cases q <;> simp_all [ZeroBefore]
    · simp only [List.length_cons, List.length_nil] at hlt
      interval_cases q <;> simp_all

theorem CodeAt.four_le {xs : List UInt8} {p n : ℕ} (h : CodeAt xs p n) : p + 4 ≤ xs.length := by
  obtain ⟨q, hpattern, ⟨-, rfl, -⟩ | ⟨-, hspare, rfl, -⟩⟩ := h
  · have hlt := hpattern.lt
    omega
  · omega

/-- A code, and the codes behind it. -/
theorem mem_code_cons_iff {i p n : ℕ} {front rest : List UInt8}
    (hfront : front = [0, 0, 0, 1] ∨ front = [0, 0, 1])
    (hfirst : ∀ n, CodeAt (front ++ rest) 0 n ↔ n = front.length)
    (hrest : ∀ p n, (i + front.length + p, n) ∈ startCodes (i + front.length) rest ↔
      CodeAt rest p n) :
    (i + p, n) ∈ (i, front.length) :: startCodes (i + front.length) rest ↔
      CodeAt (front ++ rest) p n := by
  have hend : front.getLast? ≠ some 0 := by
    rcases hfront with rfl | rfl <;> decide
  have hlen : 0 < front.length := by
    rcases hfront with rfl | rfl <;> decide
  rw [List.mem_cons, Prod.mk.injEq]
  rcases Nat.eq_zero_or_pos p with rfl | hpos
  · rw [hfirst]
    constructor
    · intro h
      rcases h with h | h
      · exact h.2
      · have hbounds := mem_startCodes h
        omega
    · intro h
      exact .inl ⟨rfl, h⟩
  · rcases Nat.lt_or_ge p front.length with hlt | hge
    · constructor
      · intro h
        rcases h with h | h
        · omega
        · have hbounds := mem_startCodes h
          omega
      · intro h
        exact absurd h (not_codeAt_inside hfront hpos hlt)
    · obtain ⟨k, rfl⟩ : ∃ k, p = front.length + k := ⟨p - front.length, by omega⟩
      rw [codeAt_append (.inl hend), ← hrest, ← Nat.add_assoc]
      constructor
      · intro h
        rcases h with h | h
        · omega
        · exact h
      · intro h
        exact .inr h

/-- The scan finds the codes and nothing else. -/
theorem mem_startCodes_iff {i p n : ℕ} {xs : List UInt8} :
    (i + p, n) ∈ startCodes i xs ↔ CodeAt xs p n := by
  fun_induction startCodes i xs generalizing p n with
  | case1 i a b c d rest h ih =>
    obtain ⟨rfl, rfl, rfl, rfl⟩ := h
    have hfront : ([0, 0, 0, 1] : List UInt8) = [0, 0, 0, 1] ∨
        ([0, 0, 0, 1] : List UInt8) = [0, 0, 1] := .inl rfl
    apply mem_code_cons_iff hfront
    · intro n
      rw [List.cons_append, List.cons_append, List.cons_append, List.cons_append, codeAt_zero]
      simp
    · intro p n
      exact ih
  | case2 i a b c d rest h h' ih =>
    obtain ⟨rfl, rfl, rfl⟩ := h'
    have hfront : ([0, 0, 1] : List UInt8) = [0, 0, 0, 1] ∨
        ([0, 0, 1] : List UInt8) = [0, 0, 1] := .inr rfl
    apply mem_code_cons_iff hfront
    · intro n
      rw [List.cons_append, List.cons_append, List.cons_append, List.nil_append, codeAt_zero]
      simp
    · intro p n
      exact ih
  | case3 i a b c d rest h h' ih =>
    cases p with
    | zero =>
      constructor
      · intro hmem
        have hbounds := mem_startCodes hmem
        omega
      · intro hcode
        rcases codeAt_zero.mp hcode with hfour | hthree
        · exact absurd ⟨hfour.1, hfour.2.1, hfour.2.2.1, hfour.2.2.2.1⟩ h
        · exact absurd ⟨hthree.1, hthree.2.1, hthree.2.2.1⟩ h'
    | succ p =>
      rw [show i + (p + 1) = i + 1 + p by omega, ih]
      exact (codeAt_cons_succ h).symm
  | case4 xs i hnot =>
    have hshort := length_lt_four hnot
    constructor
    · intro h
      exact absurd h List.not_mem_nil
    · intro h
      have hfour := h.four_le
      omega

theorem mem_startCodes_zero {p n : ℕ} {xs : List UInt8} :
    (p, n) ∈ startCodes 0 xs ↔ CodeAt xs p n := by
  rw [← mem_startCodes_iff (i := 0), Nat.zero_add]

/-- A code ends before any code behind it begins. -/
theorem CodeAt.disjoint {xs : List UInt8} {p n q m : ℕ} (hp : CodeAt xs p n)
    (hq : CodeAt xs q m) (hlt : p < q) : p + n ≤ q := by
  have hsorted := startCodes_pairwise 0 xs
  have hends : ∀ x ∈ startCodes 0 xs, ∀ y ∈ startCodes 0 xs, x.1 < y.1 → x.1 + x.2 ≤ y.1 := by
    apply List.Pairwise.forall_of_forall_of_flip
    · intro x _ hx
      exact absurd hx (Nat.lt_irrefl _)
    · apply hsorted.imp
      intro x y h _
      exact h
    · apply hsorted.imp
      intro x y h hback
      omega
  exact hends (p, n) (mem_startCodes_zero.mpr hp) (q, m) (mem_startCodes_zero.mpr hq) hlt

/-- A unit begins with a code, has a byte behind it, and goes up to the next code or
to the end. -/
structure Delimited (xs : List UInt8) (u : CodedUnit) : Prop where
  code : CodeAt xs u.start u.codeLength
  nonempty : u.start + u.codeLength < u.stop
  stop : u.stop = xs.length ∨ ∃ n, CodeAt xs u.stop n
  next : ∀ p n, CodeAt xs p n → p ≤ u.start ∨ u.stop ≤ p

theorem Delimited.stop_le_length {xs : List UInt8} {u : CodedUnit} (hu : Delimited xs u) :
    u.stop ≤ xs.length := by
  rcases hu.stop with hend | ⟨n, hcode⟩
  · omega
  · have hfour := hcode.four_le
    omega

theorem firstStart_le_of_mem {stop : ℕ} {codes : List (ℕ × ℕ)}
    (hsorted : codes.Pairwise fun x y => x.1 + x.2 ≤ y.1) {x : ℕ × ℕ} (hx : x ∈ codes) :
    firstStart stop codes ≤ x.1 := by
  cases codes with
  | nil => simp at hx
  | cons z rest =>
    rcases List.mem_cons.mp hx with rfl | hx
    · exact Nat.le_refl _
    · have hle := (List.pairwise_cons.mp hsorted).1 x hx
      exact (Nat.le_add_right _ _).trans hle

theorem firstStart_cases (stop : ℕ) (codes : List (ℕ × ℕ)) :
    (codes = [] ∧ firstStart stop codes = stop) ∨ ∃ x ∈ codes, firstStart stop codes = x.1 := by
  cases codes with
  | nil => exact .inl ⟨rfl, rfl⟩
  | cons x rest => exact .inr ⟨x, by simp, rfl⟩

/-- The first start is the only end that no code passes. -/
theorem eq_firstStart {stop e : ℕ} {codes : List (ℕ × ℕ)}
    (hsorted : codes.Pairwise fun x y => x.1 + x.2 ≤ y.1) (hstop : ∀ x ∈ codes, x.1 < stop)
    (hend : e = stop ∨ ∃ x ∈ codes, e = x.1) (hle : ∀ x ∈ codes, e ≤ x.1) :
    e = firstStart stop codes := by
  rcases firstStart_cases stop codes with ⟨rfl, hfirst⟩ | ⟨x, hx, hfirst⟩
  · rcases hend with hend | ⟨y, hy, -⟩
    · rw [hend, hfirst]
    · simp at hy
  · have hbefore := hle x hx
    have hlt := hstop x hx
    rcases hend with hend | ⟨y, hy, hend⟩
    · omega
    · have hge : firstStart stop codes ≤ y.1 := firstStart_le_of_mem hsorted hy
      omega

/-- The units of an ascending list of codes. -/
theorem mem_unitsBetween_iff {stop : ℕ} {codes : List (ℕ × ℕ)}
    (hsorted : codes.Pairwise fun x y => x.1 + x.2 ≤ y.1) (hpos : ∀ x ∈ codes, 0 < x.2)
    (hstop : ∀ x ∈ codes, x.1 < stop) {u : CodedUnit} :
    u ∈ unitsBetween stop codes ↔
      (u.start, u.codeLength) ∈ codes ∧ u.start + u.codeLength < u.stop ∧
        (u.stop = stop ∨ ∃ x ∈ codes, u.stop = x.1) ∧
        ∀ x ∈ codes, x.1 ≤ u.start ∨ u.stop ≤ x.1 := by
  induction codes with
  | nil => simp [unitsBetween]
  | cons x rest ih =>
    obtain ⟨hx, hrest⟩ := List.pairwise_cons.mp hsorted
    obtain ⟨hxpos, hrestPos⟩ := List.forall_mem_cons.mp hpos
    obtain ⟨-, hrestStop⟩ := List.forall_mem_cons.mp hstop
    rw [unitsBetween, List.mem_append, mem_unitAt, ih hrest hrestPos hrestStop]
    constructor
    · intro h
      rcases h with ⟨rfl, hlt⟩ | ⟨hcode, hlt, hend, hothers⟩
      · refine ⟨by simp, hlt, ?_, List.forall_mem_cons.mpr ⟨.inl (Nat.le_refl _), ?_⟩⟩
        · rcases firstStart_cases stop rest with ⟨-, hlast⟩ | ⟨y, hy, heq⟩
          · exact .inl hlast
          · exact .inr ⟨y, List.mem_cons_of_mem _ hy, heq⟩
        · intro y hy
          exact .inr (firstStart_le_of_mem hrest hy)
      · have hbefore := hx _ hcode
        refine ⟨List.mem_cons_of_mem _ hcode, hlt, ?_,
          List.forall_mem_cons.mpr ⟨.inl ((Nat.le_add_right _ _).trans hbefore), hothers⟩⟩
        rcases hend with hend | ⟨y, hy, heq⟩
        · exact .inl hend
        · exact .inr ⟨y, List.mem_cons_of_mem _ hy, heq⟩
    · intro h
      obtain ⟨hcode, hlt, hend, hothers⟩ := h
      have hbehind := (List.forall_mem_cons.mp hothers).2
      -- no unit ends where its own code or one before it begins
      have hend' : x.1 < u.stop → u.stop = stop ∨ ∃ y ∈ rest, u.stop = y.1 := by
        intro hlater
        rcases hend with hend | ⟨y, hy, hend⟩
        · exact .inl hend
        · rcases List.mem_cons.mp hy with rfl | hy
          · omega
          · exact .inr ⟨y, hy, hend⟩
      rcases List.mem_cons.mp hcode with hcode | hcode
      · left
        obtain ⟨hstart, hlength⟩ := Prod.mk.inj hcode
        have hends : u.stop = firstStart stop rest := by
          refine eq_firstStart hrest hrestStop (hend' (by omega)) fun y hy => ?_
          have hafter := hx y hy
          rcases hbehind y hy with hbefore | hle
          · omega
          · exact hle
        refine ⟨?_, by omega⟩
        rw [← hends, ← hstart, ← hlength]
      · right
        have hafter := hx _ hcode
        dsimp only at hafter
        exact ⟨hcode, hlt, hend' (by omega), hbehind⟩

theorem mem_units_iff {xs : List UInt8} {u : CodedUnit} : u ∈ units 0 xs ↔ Delimited xs u := by
  have hcode : ∀ p n, (p, n) ∈ startCodes 0 xs ↔ CodeAt xs p n := fun p n => mem_startCodes_zero
  have hpos : ∀ x ∈ startCodes 0 xs, 0 < x.2 := by
    intro x hx
    have hbounds := mem_startCodes hx
    omega
  have hstop : ∀ x ∈ startCodes 0 xs, x.1 < 0 + xs.length := by
    intro x hx
    have hbounds := mem_startCodes hx
    omega
  rw [units, mem_unitsBetween_iff (startCodes_pairwise 0 xs) hpos hstop, Nat.zero_add]
  constructor
  · intro h
    obtain ⟨hunit, hlt, hend, hothers⟩ := h
    refine ⟨(hcode _ _).mp hunit, hlt, ?_, fun p n hp => hothers (p, n) ((hcode p n).mpr hp)⟩
    rcases hend with hend | ⟨x, hx, hend⟩
    · exact .inl hend
    · rw [hend]
      exact .inr ⟨x.2, (hcode x.1 x.2).mp hx⟩
  · intro h
    refine ⟨(hcode _ _).mpr h.code, h.nonempty, ?_,
      fun x hx => h.next x.1 x.2 ((hcode x.1 x.2).mp hx)⟩
    rcases h.stop with hend | ⟨n, hn⟩
    · exact .inl hend
    · exact .inr ⟨(u.stop, n), (hcode _ _).mpr hn, rfl⟩

/-- The units stand one behind the other. -/
theorem unitsBetween_pairwise {stop : ℕ} {codes : List (ℕ × ℕ)}
    (hsorted : codes.Pairwise fun x y => x.1 + x.2 ≤ y.1) :
    (unitsBetween stop codes).Pairwise fun u v => u.stop ≤ v.start := by
  induction codes with
  | nil => exact .nil
  | cons x rest ih =>
    obtain ⟨hx, hrest⟩ := List.pairwise_cons.mp hsorted
    rw [unitsBetween, List.pairwise_append]
    refine ⟨?_, ih hrest, ?_⟩
    · unfold unitAt
      split_ifs
      · exact .nil
      · exact List.pairwise_singleton _ _
    · intro u hu v hv
      rw [mem_unitAt] at hu
      obtain ⟨rfl, -⟩ := hu
      obtain ⟨hcode, -⟩ := mem_unitsBetween hv
      exact firstStart_le_of_mem hrest hcode

/-- Behind the first code every byte lies in a unit, or in a code with nothing behind
it but the next code or the end. -/
theorem mem_unit_or_emptyCode {xs : List UInt8} {j : ℕ} (hj : j < xs.length)
    (hcode : ∃ p n, CodeAt xs p n ∧ p ≤ j) :
    (∃ u, Delimited xs u ∧ u.start ≤ j ∧ j < u.stop) ∨
      ∃ p n, CodeAt xs p n ∧ p ≤ j ∧ j < p + n ∧
        (p + n = xs.length ∨ ∃ m, CodeAt xs (p + n) m) := by
  classical
  obtain ⟨p₀, n₀, hp₀, hle₀⟩ := hcode
  -- the last code that begins at `j` or before
  obtain ⟨n, hlast⟩ := Nat.findGreatest_spec (P := fun p => ∃ n, CodeAt xs p n) hle₀ ⟨n₀, hp₀⟩
  have hle := Nat.findGreatest_le (P := fun p => ∃ n, CodeAt xs p n) j
  have hgreatest : ∀ q m, CodeAt xs q m → q ≤ j →
      q ≤ Nat.findGreatest (fun p => ∃ n, CodeAt xs p n) j :=
    fun q m hq hqj => Nat.le_findGreatest hqj ⟨m, hq⟩
  generalize Nat.findGreatest (fun p => ∃ n, CodeAt xs p n) j = p at hlast hle hgreatest
  -- where the next one begins, or the end
  have hnext : ∃ s, j < s ∧ (s = xs.length ∨ ∃ m, CodeAt xs s m) := ⟨xs.length, hj, .inl rfl⟩
  obtain ⟨hlt, hstop⟩ := Nat.find_spec hnext
  have hleast : ∀ q m, CodeAt xs q m → j < q → Nat.find hnext ≤ q :=
    fun q m hq hjq => Nat.find_min' hnext ⟨hjq, .inr ⟨m, hq⟩⟩
  generalize Nat.find hnext = stop at hlt hstop hleast
  have hends : p + n ≤ stop := by
    rcases hstop with rfl | ⟨m, hm⟩
    · have hinside := mem_startCodes (mem_startCodes_zero.mpr hlast)
      omega
    · exact hlast.disjoint hm (by omega)
  by_cases hempty : p + n = stop
  · right
    exact ⟨p, n, hlast, hle, by omega, by rwa [hempty]⟩
  · left
    refine ⟨⟨p, n, stop⟩, ⟨hlast, by dsimp only; omega, hstop, ?_⟩, hle, hlt⟩
    intro q m hq
    rcases Nat.lt_or_ge j q with hjq | hqj
    · exact .inr (hleast q m hq hjq)
    · exact .inl (hgreatest q m hq hqj)

end Dvrft.StartCodes

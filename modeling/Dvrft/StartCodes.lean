import Mathlib.Data.List.Basic
import Mathlib.Data.Nat.Notation

/-!
Byte streams whose units begin with a start code, three zeros and a one or two
zeros and a one. The scan of two pieces in a row is the scan of the first one
followed by the scan of the second together with the few bytes that the first
scan left over. From this it follows when a stream may be cut without a change
of its units.
-/

namespace Dvrft.StartCodes

/-- The start codes of a stream that begins at offset `i`: their offsets and
lengths. A code of three bytes counts when a byte follows it. -/
def startCodes : ℕ → List UInt8 → List (ℕ × ℕ)
  | i, a :: b :: c :: d :: rest =>
    if a = 0 ∧ b = 0 ∧ c = 0 ∧ d = 1 then (i, 4) :: startCodes (i + 4) rest
    else if a = 0 ∧ b = 0 ∧ c = 1 then (i, 3) :: startCodes (i + 3) (d :: rest)
    else startCodes (i + 1) (b :: c :: d :: rest)
  | _, _ => []

/-- The bytes at the end of a stream that its scan does not decide on. -/
def leftover : List UInt8 → List UInt8
  | a :: b :: c :: d :: rest =>
    if a = 0 ∧ b = 0 ∧ c = 0 ∧ d = 1 then leftover rest
    else if a = 0 ∧ b = 0 ∧ c = 1 then leftover (d :: rest)
    else leftover (b :: c :: d :: rest)
  | xs => xs

theorem length_lt_four {xs : List UInt8}
    (h : ∀ a b c d rest, xs = a :: b :: c :: d :: rest → False) : xs.length < 4 := by
  match xs, h with
  | [], _ => simp
  | [_], _ => simp
  | [_, _], _ => simp
  | [_, _, _], _ => simp
  | a :: b :: c :: d :: rest, h => exact (h a b c d rest rfl).elim

theorem exists_four {xs : List UInt8} (h : 4 ≤ xs.length) :
    ∃ a b c d rest, xs = a :: b :: c :: d :: rest := by
  by_contra hnot
  have hshort := length_lt_four fun a b c d rest heq => hnot ⟨a, b, c, d, rest, heq⟩
  omega

theorem startCodes_of_short (i : ℕ) {xs : List UInt8} (h : xs.length < 4) :
    startCodes i xs = [] := by
  match xs, h with
  | [], _ => rfl
  | [_], _ => rfl
  | [_, _], _ => rfl
  | [_, _, _], _ => rfl

theorem leftover_of_short {xs : List UInt8} (h : xs.length < 4) : leftover xs = xs := by
  match xs, h with
  | [], _ => rfl
  | [_], _ => rfl
  | [_, _], _ => rfl
  | [_, _, _], _ => rfl

theorem length_leftover (xs : List UInt8) :
    (leftover xs).length ≤ 3 ∧ (leftover xs).length ≤ xs.length := by
  fun_induction leftover xs with
  | case1 a b c d rest h ih =>
    simp only [List.length_cons]
    omega
  | case2 a b c d rest h h' ih =>
    simp only [List.length_cons] at ih ⊢
    omega
  | case3 a b c d rest h h' ih =>
    simp only [List.length_cons] at ih ⊢
    omega
  | case4 xs hnot =>
    have hshort := length_lt_four hnot
    omega

/-- The scan of the first piece, then that of the second with the leftover. -/
theorem startCodes_append (i : ℕ) (xs ys : List UInt8) :
    startCodes i (xs ++ ys) = startCodes i xs ++
      startCodes (i + (xs.length - (leftover xs).length)) (leftover xs ++ ys) := by
  fun_induction startCodes i xs with
  | case1 i a b c d rest h ih =>
    have hlen := (length_leftover rest).2
    rw [leftover, if_pos h, List.cons_append, List.cons_append, List.cons_append,
      List.cons_append, startCodes, if_pos h, ih, List.cons_append]
    congr 3
    simp only [List.length_cons]
    omega
  | case2 i a b c d rest h h' ih =>
    have hlen := (length_leftover (d :: rest)).2
    rw [leftover, if_neg h, if_pos h', List.cons_append, List.cons_append, List.cons_append,
      List.cons_append, startCodes, if_neg h, if_pos h', ← List.cons_append, ih, List.cons_append]
    congr 3
    simp only [List.length_cons] at hlen ⊢
    omega
  | case3 i a b c d rest h h' ih =>
    have hlen := (length_leftover (b :: c :: d :: rest)).2
    rw [leftover, if_neg h, if_neg h', List.cons_append, List.cons_append, List.cons_append,
      List.cons_append, startCodes, if_neg h, if_neg h', ← List.cons_append, ← List.cons_append,
      ← List.cons_append, ih]
    congr 2
    simp only [List.length_cons] at hlen ⊢
    omega
  | case4 xs i hnot =>
    rw [leftover_of_short (length_lt_four hnot), Nat.sub_self, Nat.add_zero, List.nil_append]

/-- A start code lies inside its stream with a byte to spare, or is one of four bytes. -/
theorem mem_startCodes {i : ℕ} {xs : List UInt8} {x : ℕ × ℕ} (hx : x ∈ startCodes i xs) :
    i ≤ x.1 ∧ x.1 + 4 ≤ i + xs.length ∧ (x.2 = 3 ∨ x.2 = 4) := by
  fun_induction startCodes i xs with
  | case1 i a b c d rest h ih =>
    simp only [List.length_cons]
    rcases List.mem_cons.mp hx with rfl | hx
    · dsimp only
      omega
    · have hbounds := ih hx
      omega
  | case2 i a b c d rest h h' ih =>
    simp only [List.length_cons] at ih ⊢
    rcases List.mem_cons.mp hx with rfl | hx
    · dsimp only
      omega
    · have hbounds := ih hx
      omega
  | case3 i a b c d rest h h' ih =>
    simp only [List.length_cons] at ih ⊢
    have hbounds := ih hx
    omega
  | case4 => simp at hx

/-- One code ends before the next begins. -/
theorem startCodes_pairwise (i : ℕ) (xs : List UInt8) :
    (startCodes i xs).Pairwise fun x y => x.1 + x.2 ≤ y.1 := by
  fun_induction startCodes i xs with
  | case1 i a b c d rest h ih =>
    exact List.pairwise_cons.mpr ⟨fun y hy => (mem_startCodes hy).1, ih⟩
  | case2 i a b c d rest h h' ih =>
    exact List.pairwise_cons.mpr ⟨fun y hy => (mem_startCodes hy).1, ih⟩
  | case3 i a b c d rest h h' ih => exact ih
  | case4 => exact .nil

theorem startCodes_shift (k i : ℕ) (xs : List UInt8) :
    startCodes (k + i) xs = (startCodes i xs).map fun x => (k + x.1, x.2) := by
  fun_induction startCodes i xs with
  | case1 i a b c d rest h ih => rw [startCodes, if_pos h, List.map_cons, ← ih, Nat.add_assoc]
  | case2 i a b c d rest h h' ih =>
    rw [startCodes, if_neg h, if_pos h', List.map_cons, ← ih, Nat.add_assoc]
  | case3 i a b c d rest h h' ih => rw [startCodes, if_neg h, if_neg h', ← ih, Nat.add_assoc]
  | case4 xs i hnot => rw [startCodes_of_short _ (length_lt_four hnot), List.map_nil]

/-- A first byte that is not the first of two zeros begins no code. -/
theorem startCodes_cons_of_ne (i : ℕ) (x : UInt8) (xs : List UInt8)
    (h : x ≠ 0 ∨ xs.head? ≠ some 0) : startCodes i (x :: xs) = startCodes (i + 1) xs := by
  match xs, h with
  | [], _ => rfl
  | [_], _ => rfl
  | [_, _], _ => rfl
  | b :: c :: d :: rest, h =>
    have hzeros : ¬ (x = 0 ∧ b = 0) := by
      rintro ⟨rfl, rfl⟩
      simp at h
    rw [startCodes, if_neg fun hcode => hzeros ⟨hcode.1, hcode.2.1⟩,
      if_neg fun hcode => hzeros ⟨hcode.1, hcode.2.1⟩]

/-- The first three bytes of a code in front of the stream, its fourth in it. -/
theorem rest_of_three (i : ℕ) (front xs rest : List UInt8) (hfront : front.length ≤ 2)
    (htail : front ++ xs = 0 :: 1 :: rest) :
    startCodes (i + 1 + front.length) xs = startCodes (i + 3) rest := by
  match front, hfront, htail with
  | [], _, htail =>
    rw [List.nil_append] at htail
    rw [htail, startCodes_cons_of_ne _ _ _ (by simp), startCodes_cons_of_ne _ _ _ (by simp)]
    rfl
  | [b], _, htail =>
    obtain ⟨rfl, rfl⟩ : b = 0 ∧ xs = 1 :: rest := by simpa using htail
    rw [startCodes_cons_of_ne _ _ _ (by simp)]
    rfl
  | [b, c], _, htail =>
    obtain ⟨rfl, rfl, rfl⟩ : b = 0 ∧ c = 1 ∧ xs = rest := by simpa using htail
    rfl

/-- The first three bytes of the stream are the end of a code in front of it: read
on their own they are a code of three bytes, if a byte follows. -/
theorem startCodes_code_of_three (i : ℕ) (rest : List UInt8) :
    startCodes i (0 :: 0 :: 1 :: rest) = startCodes (i + 3) rest ∨
      startCodes i (0 :: 0 :: 1 :: rest) = (i, 3) :: startCodes (i + 3) rest := by
  cases rest with
  | nil => exact .inl rfl
  | cons d rest =>
    right
    have hcode : ¬ ((0 : UInt8) = 0 ∧ (0 : UInt8) = 0 ∧ (1 : UInt8) = 0 ∧ d = 1) := by
      rintro ⟨-, -, hone, -⟩
      exact absurd hone (by decide)
    rw [startCodes, if_neg hcode, if_pos (by decide)]

/-- A code of four bytes that begins in front of the stream. -/
theorem rest_of_four (i : ℕ) (front xs rest : List UInt8) (hfront : front.length ≤ 2)
    (htail : front ++ xs = 0 :: 0 :: 1 :: rest) :
    startCodes (i + 1 + front.length) xs = startCodes (i + 4) rest ∨
      (front = [] ∧ startCodes (i + 1) xs = (i + 1, 3) :: startCodes (i + 4) rest) := by
  match front, hfront, htail with
  | [], _, htail =>
    rw [List.nil_append] at htail
    rw [htail]
    rcases startCodes_code_of_three (i + 1) rest with hnone | hcode
    · exact .inl hnone
    · exact .inr ⟨rfl, hcode⟩
  | [b], _, htail =>
    obtain ⟨rfl, rfl⟩ : b = 0 ∧ xs = 0 :: 1 :: rest := by simpa using htail
    left
    rw [startCodes_cons_of_ne _ _ _ (by simp), startCodes_cons_of_ne _ _ _ (by simp)]
    rfl
  | [b, c], _, htail =>
    obtain ⟨rfl, rfl, rfl⟩ : b = 0 ∧ c = 0 ∧ xs = 1 :: rest := by simpa using htail
    left
    rw [startCodes_cons_of_ne _ _ _ (by simp)]
    rfl

/-- At most three bytes in front of a stream leave its start codes as they are, or
add one that begins in front of it, or move its first one by a byte. -/
theorem startCodes_front (i : ℕ) (front xs : List UInt8) (hfront : front.length ≤ 3) :
    startCodes i (front ++ xs) = startCodes (i + front.length) xs ∨
      (∃ x, i ≤ x.1 ∧ x.1 < i + front.length ∧
        startCodes i (front ++ xs) = x :: startCodes (i + front.length) xs) ∨
      (∃ codes, 0 < front.length ∧
        startCodes i (front ++ xs) = (i + front.length - 1, 4) :: codes ∧
        startCodes (i + front.length) xs = (i + front.length, 3) :: codes) := by
  induction front generalizing i with
  | nil => exact .inl rfl
  | cons r front ih =>
    by_cases hshort : (r :: front ++ xs).length < 4
    · left
      simp only [List.length_append] at hshort
      rw [startCodes_of_short _ (by simp only [List.length_append]; omega),
        startCodes_of_short _ (by omega)]
    · obtain ⟨a, b, c, d, rest, heq⟩ := exists_four (Nat.le_of_not_lt hshort)
      have hlen : i + (r :: front).length = i + 1 + front.length := by
        simp only [List.length_cons]
        omega
      have hfew : front.length ≤ 2 := by
        rw [List.length_cons] at hfront
        omega
      have hscan : startCodes i (r :: front ++ xs) = startCodes i (a :: b :: c :: d :: rest) := by
        rw [heq]
      obtain ⟨rfl, htail⟩ : r = a ∧ front ++ xs = b :: c :: d :: rest := by simpa using heq
      by_cases h4 : r = 0 ∧ b = 0 ∧ c = 0 ∧ d = 1
      · rw [hscan, startCodes, if_pos h4]
        obtain ⟨-, rfl, rfl, rfl⟩ := h4
        right
        rcases rest_of_four i front xs rest hfew htail with
          hrest | ⟨rfl, hmoved⟩
        · left
          refine ⟨(i, 4), Nat.le_refl i, by simp, ?_⟩
          rw [← hrest, hlen]
        · right
          exact ⟨startCodes (i + 4) rest, by simp, rfl, hmoved⟩
      · by_cases h3 : r = 0 ∧ b = 0 ∧ c = 1
        · rw [hscan, startCodes, if_neg h4, if_pos h3]
          obtain ⟨-, rfl, rfl⟩ := h3
          right
          left
          refine ⟨(i, 3), Nat.le_refl i, by simp, ?_⟩
          rw [hlen, rest_of_three i front xs (d :: rest) hfew htail]
        · rw [hscan, startCodes, if_neg h4, if_neg h3, ← htail]
          rw [hlen]
          rcases ih (i + 1) (by simp only [List.length_cons] at hfront; omega) with
            hsame | ⟨x, hlow, hhigh, hadded⟩ | ⟨codes, hpos, hmoved, hfirst⟩
          · exact .inl hsame
          · exact .inr (.inl ⟨x, by omega, hhigh, hadded⟩)
          · exact .inr (.inr ⟨codes, by simp, hmoved, hfirst⟩)

/-- The start codes of two pieces in a row: those of both, or one more that begins
in the last three bytes of the first, which may be the second's first code. -/
theorem startCodes_cut (xs ys : List UInt8) :
    startCodes 0 (xs ++ ys) = startCodes 0 xs ++ startCodes xs.length ys ∨
      (∃ x, xs.length < x.1 + 4 ∧ x.1 < xs.length ∧
        startCodes 0 (xs ++ ys) = startCodes 0 xs ++ x :: startCodes xs.length ys) ∨
      (∃ codes, 0 < xs.length ∧
        startCodes 0 (xs ++ ys) = startCodes 0 xs ++ (xs.length - 1, 4) :: codes ∧
        startCodes xs.length ys = (xs.length, 3) :: codes) := by
  obtain ⟨hthree, hle⟩ := length_leftover xs
  have hstop : 0 + (xs.length - (leftover xs).length) + (leftover xs).length = xs.length := by
    omega
  rw [startCodes_append]
  rcases startCodes_front (0 + (xs.length - (leftover xs).length)) (leftover xs) ys hthree with
    hsame | ⟨x, hlow, hhigh, hadded⟩ | ⟨codes, hpos, hmoved, hfirst⟩
  · left
    rw [hsame, hstop]
  · right
    left
    refine ⟨x, by omega, by omega, ?_⟩
    rw [hadded, hstop]
  · right
    right
    rw [hstop] at hmoved hfirst
    exact ⟨codes, by omega, by rw [hmoved], hfirst⟩

/-- A unit goes from its start code to the next one. -/
structure CodedUnit where
  start : ℕ
  codeLength : ℕ
  stop : ℕ
  deriving DecidableEq, Repr

namespace CodedUnit

def span (u : CodedUnit) : ℕ × ℕ := (u.start, u.stop)

def shift (k : ℕ) (u : CodedUnit) : CodedUnit := ⟨k + u.start, u.codeLength, k + u.stop⟩

end CodedUnit

/-- The unit of a code, unless nothing follows the code. -/
def unitAt (x : ℕ × ℕ) (stop : ℕ) : List CodedUnit :=
  if stop ≤ x.1 + x.2 then [] else [⟨x.1, x.2, stop⟩]

/-- Where the first code begins, or the end. -/
def firstStart (stop : ℕ) (codes : List (ℕ × ℕ)) : ℕ := (codes.head?.map Prod.fst).getD stop

def unitsBetween (stop : ℕ) : List (ℕ × ℕ) → List CodedUnit
  | [] => []
  | x :: rest => unitAt x (firstStart stop rest) ++ unitsBetween stop rest

/-- The units of a stream that begins at offset `i`. -/
def units (i : ℕ) (xs : List UInt8) : List CodedUnit :=
  unitsBetween (i + xs.length) (startCodes i xs)

theorem unitsBetween_append (stop : ℕ) (front codes : List (ℕ × ℕ)) :
    unitsBetween stop (front ++ codes) =
      unitsBetween (firstStart stop codes) front ++ unitsBetween stop codes := by
  induction front with
  | nil => rfl
  | cons x rest ih =>
    have hnext : firstStart stop (rest ++ codes) = firstStart (firstStart stop codes) rest := by
      cases rest <;> rfl
    rw [List.cons_append, unitsBetween, unitsBetween, ih, hnext, List.append_assoc]

theorem mem_unitAt {x : ℕ × ℕ} {stop : ℕ} {u : CodedUnit} :
    u ∈ unitAt x stop ↔ u = ⟨x.1, x.2, stop⟩ ∧ x.1 + x.2 < stop := by
  unfold unitAt
  split_ifs with h
  · simp only [List.not_mem_nil, false_iff, not_and]
    omega
  · simp only [List.mem_singleton]
    constructor
    · intro hu
      exact ⟨hu, by omega⟩
    · intro hu
      exact hu.1

theorem mem_unitsBetween {stop : ℕ} {codes : List (ℕ × ℕ)} {u : CodedUnit}
    (hu : u ∈ unitsBetween stop codes) :
    (u.start, u.codeLength) ∈ codes ∧ u.start + u.codeLength < u.stop ∧
      (u.stop = stop ∨ ∃ x ∈ codes, u.stop = x.1) := by
  induction codes with
  | nil => simp [unitsBetween] at hu
  | cons x rest ih =>
    rw [unitsBetween, List.mem_append, mem_unitAt] at hu
    rcases hu with ⟨rfl, hlt⟩ | hu
    · refine ⟨by simp, hlt, ?_⟩
      cases rest with
      | nil => exact .inl rfl
      | cons y rest => exact .inr ⟨y, by simp, rfl⟩
    · obtain ⟨hcode, hlt, hstop⟩ := ih hu
      refine ⟨List.mem_cons_of_mem _ hcode, hlt, ?_⟩
      rcases hstop with hstop | ⟨y, hy, hstop⟩
      · exact .inl hstop
      · exact .inr ⟨y, List.mem_cons_of_mem _ hy, hstop⟩

/-- A unit lies inside its stream. -/
theorem mem_units {i : ℕ} {xs : List UInt8} {u : CodedUnit} (hu : u ∈ units i xs) :
    i ≤ u.start ∧ u.start + u.codeLength < u.stop ∧ u.stop ≤ i + xs.length := by
  obtain ⟨hcode, hlt, hstop⟩ := mem_unitsBetween hu
  have hbounds := mem_startCodes hcode
  refine ⟨hbounds.1, hlt, ?_⟩
  rcases hstop with hstop | ⟨x, hx, hstop⟩
  · omega
  · have hnext := mem_startCodes hx
    omega

theorem units_shift (k i : ℕ) (xs : List UInt8) :
    units (k + i) xs = (units i xs).map (CodedUnit.shift k) := by
  have hbetween : ∀ (stop : ℕ) (codes : List (ℕ × ℕ)),
      unitsBetween (k + stop) (codes.map fun x => (k + x.1, x.2)) =
        (unitsBetween stop codes).map (CodedUnit.shift k) := by
    intro stop codes
    induction codes with
    | nil => rfl
    | cons x rest ih =>
      have hnext : firstStart (k + stop) (rest.map fun x => (k + x.1, x.2)) =
          k + firstStart stop rest := by
        cases rest <;> rfl
      rw [List.map_cons, unitsBetween, unitsBetween, ih, hnext, List.map_append]
      congr 1
      unfold unitAt
      dsimp only
      split_ifs <;> first | omega | rfl
  rw [units, units, startCodes_shift, Nat.add_assoc, hbetween]

/-- A stream may be cut behind `xs` when `xs` has no start code and no unit begins
in it, or when no code begins in its last three bytes and one begins right behind
them. -/
def CutFits (xs ys : List UInt8) : Prop :=
  (startCodes 0 xs = [] ∧ ∀ u ∈ units 0 (xs ++ ys), xs.length ≤ u.start) ∨
    ((∀ x ∈ startCodes 0 (xs ++ ys), ¬ (xs.length < x.1 + 4 ∧ x.1 < xs.length)) ∧
      ∃ x ∈ startCodes 0 (xs ++ ys), x.1 = xs.length)

theorem units_append (xs ys : List UInt8) (codes : List (ℕ × ℕ))
    (h : startCodes 0 (xs ++ ys) = startCodes 0 xs ++ codes) :
    units 0 (xs ++ ys) =
      unitsBetween (firstStart (xs.length + ys.length) codes) (startCodes 0 xs) ++
        unitsBetween (xs.length + ys.length) codes := by
  rw [units, h, unitsBetween_append, List.length_append, Nat.zero_add]

/-- The code that begins a stream is its first. -/
theorem firstStart_of_mem {i stop : ℕ} {xs : List UInt8} {x : ℕ × ℕ}
    (hx : x ∈ startCodes i xs) (hstart : x.1 = i) : firstStart stop (startCodes i xs) = i := by
  cases hcodes : startCodes i xs with
  | nil => simp [hcodes] at hx
  | cons y rest =>
    have hpairwise := startCodes_pairwise i xs
    have hmem : y ∈ startCodes i xs := by simp [hcodes]
    have hy := mem_startCodes hmem
    rw [hcodes] at hpairwise hx
    rcases List.mem_cons.mp hx with rfl | hx
    · exact hstart
    · have hlater := (List.pairwise_cons.mp hpairwise).1 x hx
      omega

/-- A code in front of `n` that has no unit there is followed by the next at once. -/
theorem stop_le_of_no_unit {x : ℕ × ℕ} {stop n : ℕ} (hx : x.1 < n)
    (h : ∀ u ∈ unitAt x stop, n ≤ u.start) : stop ≤ x.1 + x.2 := by
  by_contra hlong
  have hunit := h ⟨x.1, x.2, stop⟩ (mem_unitAt.mpr ⟨rfl, by omega⟩)
  dsimp only at hunit
  omega

theorem unitAt_of_le {x : ℕ × ℕ} {stop : ℕ} (h : stop ≤ x.1 + x.2) : unitAt x stop = [] :=
  if_pos h

/-- A fitting cut leaves the units as they are. -/
theorem units_of_cutFits {xs ys : List UInt8} (hcut : CutFits xs ys) :
    units 0 (xs ++ ys) = units 0 xs ++ units xs.length ys := by
  have hleft : units 0 xs = unitsBetween xs.length (startCodes 0 xs) := by
    rw [units, Nat.zero_add]
  rw [hleft]
  rcases hcut with ⟨hnone, hinside⟩ | ⟨hlast, x, hx, hbegins⟩
  · rw [hnone]
    rcases startCodes_cut xs ys with hsame | ⟨x, -, hhigh, hadded⟩ | ⟨codes, hpos, hmoved, hfirst⟩
    · rw [units_append xs ys _ hsame, hnone]
      rfl
    · rw [units_append xs ys _ hadded, hnone, unitsBetween, unitsBetween, List.nil_append]
        at hinside ⊢
      have hempty := stop_le_of_no_unit hhigh fun u hu => hinside u (List.mem_append_left _ hu)
      rw [unitAt_of_le hempty]
      rfl
    · rw [units_append xs ys _ hmoved, hnone, unitsBetween, unitsBetween, List.nil_append]
        at hinside ⊢
      have hempty := stop_le_of_no_unit (n := xs.length) (by omega)
        fun u hu => hinside u (List.mem_append_left _ hu)
      dsimp only at hempty
      have hmovedEmpty : unitAt (xs.length, 3) (firstStart (xs.length + ys.length) codes) = [] :=
        unitAt_of_le (by dsimp only; omega)
      have hright : units xs.length ys = unitsBetween (xs.length + ys.length) codes := by
        rw [units, hfirst, unitsBetween, hmovedEmpty, List.nil_append]
      rw [unitAt_of_le hempty, hright]
      rfl
  · have hsame : startCodes 0 (xs ++ ys) = startCodes 0 xs ++ startCodes xs.length ys := by
      rcases startCodes_cut xs ys with hsame | ⟨y, hlow, hhigh, hadded⟩ |
        ⟨codes, hpos, hmoved, hfirst⟩
      · exact hsame
      · exact absurd ⟨hlow, hhigh⟩ (hlast y (by simp [hadded]))
      · have hnear := hlast (xs.length - 1, 4) (by simp [hmoved])
        dsimp only at hnear
        omega
    have hmem : x ∈ startCodes xs.length ys := by
      rw [hsame, List.mem_append] at hx
      rcases hx with hx | hx
      · have hbounds := mem_startCodes hx
        omega
      · exact hx
    rw [units_append xs ys _ hsame, firstStart_of_mem hmem hbegins]
    rfl

/-- The unit of a code ends where the next code begins. -/
theorem stop_of_start_eq {zs : List UInt8} {front codes : List (ℕ × ℕ)} {x : ℕ × ℕ}
    (hcodes : startCodes 0 zs = front ++ x :: codes) {u : CodedUnit} (hu : u ∈ units 0 zs)
    (hstart : u.start = x.1) : u.stop = firstStart zs.length codes := by
  have hpairwise := startCodes_pairwise 0 zs
  have hlengths : ∀ y ∈ startCodes 0 zs, 0 < y.2 := by
    intro y hy
    have hbounds := mem_startCodes hy
    omega
  rw [hcodes, List.pairwise_append, List.pairwise_cons] at hpairwise
  rw [hcodes] at hlengths
  rw [units, hcodes, unitsBetween_append, unitsBetween, Nat.zero_add, List.mem_append,
    List.mem_append] at hu
  rcases hu with hu | hu | hu
  · obtain ⟨hcode, -⟩ := mem_unitsBetween hu
    have hbefore := hpairwise.2.2 _ hcode x (by simp)
    have hlength := hlengths _ (List.mem_append_left _ hcode)
    dsimp only at hbefore hlength
    omega
  · rw [(mem_unitAt.mp hu).1]
  · obtain ⟨hcode, -⟩ := mem_unitsBetween hu
    have hafter := hpairwise.2.1.1 _ hcode
    have hlength := hlengths x (by simp)
    dsimp only at hafter
    omega

/-- The unit of the last code of a stream ends with the stream, unless it is empty. -/
theorem lastUnit_mem {xs : List UInt8} {front : List (ℕ × ℕ)} {x : ℕ × ℕ}
    (hlast : startCodes 0 xs = front ++ [x]) (hne : x.1 + x.2 < xs.length) :
    CodedUnit.mk x.1 x.2 xs.length ∈ units 0 xs := by
  rw [units, hlast, unitsBetween_append, Nat.zero_add]
  exact List.mem_append_right _ (List.mem_append_left _ (mem_unitAt.mpr ⟨rfl, hne⟩))

section SameSpans

variable {xs ys : List UInt8} {front : List (ℕ × ℕ)} {x : ℕ × ℕ}

/-- Where the spans of `xs` are spans of the whole, no code of the whole begins between
the last code of `xs` and its end: the unit of that last code would end there, and on
its own it ends with `xs`. -/
theorem not_lt_of_spans (hlast : startCodes 0 xs = front ++ [x])
    (hkept : ∀ s ∈ (units 0 xs).map CodedUnit.span, s ∈ (units 0 (xs ++ ys)).map CodedUnit.span)
    {y : ℕ × ℕ} {codes : List (ℕ × ℕ)}
    (hcodes : startCodes 0 (xs ++ ys) = startCodes 0 xs ++ y :: codes) : ¬ y.1 < xs.length := by
  intro hy
  have hsplit : startCodes 0 (xs ++ ys) = front ++ x :: (y :: codes) := by
    rw [hcodes, hlast, List.append_assoc, List.singleton_append]
  have horder : x.1 + x.2 ≤ y.1 := by
    have hpairwise := startCodes_pairwise 0 (xs ++ ys)
    rw [hsplit, List.pairwise_append, List.pairwise_cons] at hpairwise
    exact hpairwise.2.1.1 y (by simp)
  have hspan : (x.1, xs.length) ∈ (units 0 (xs ++ ys)).map CodedUnit.span :=
    hkept _ (List.mem_map.mpr ⟨_, lastUnit_mem hlast (Nat.lt_of_le_of_lt horder hy), rfl⟩)
  obtain ⟨u, hu, huspan⟩ := List.mem_map.mp hspan
  obtain ⟨hstart, hstop⟩ := Prod.mk.inj huspan
  have hnext := stop_of_start_eq hsplit hu hstart
  rw [hstop] at hnext
  have hfirst : firstStart (xs ++ ys).length (y :: codes) = y.1 := rfl
  omega

theorem startCodes_of_spans (hlast : startCodes 0 xs = front ++ [x])
    (hkept : ∀ s ∈ (units 0 xs).map CodedUnit.span,
      s ∈ (units 0 (xs ++ ys)).map CodedUnit.span) :
    startCodes 0 (xs ++ ys) = startCodes 0 xs ++ startCodes xs.length ys := by
  rcases startCodes_cut xs ys with hsame | ⟨y, -, hhigh, hadded⟩ | ⟨codes, hlen, hmoved, -⟩
  · exact hsame
  · exact absurd hhigh (not_lt_of_spans hlast hkept hadded)
  · exact absurd (Nat.sub_lt hlen (by decide)) (not_lt_of_spans hlast hkept hmoved)

/-- Unless a code begins at the cut, the unit of the last code in front of it reaches
beyond the cut. -/
theorem exists_unit_beyond (hys : ys ≠ []) (hlast : startCodes 0 xs = front ++ [x])
    (hsame : startCodes 0 (xs ++ ys) = startCodes 0 xs ++ startCodes xs.length ys)
    (hno : ¬ ∃ y ∈ startCodes 0 (xs ++ ys), y.1 = xs.length) :
    ∃ stop, xs.length < stop ∧ CodedUnit.mk x.1 x.2 stop ∈ units 0 (xs ++ ys) := by
  have hpos : 0 < ys.length := List.length_pos_iff.mpr hys
  have hx : x ∈ startCodes 0 xs := by simp [hlast]
  have hbounds := mem_startCodes hx
  have hbeyond : xs.length < firstStart (xs ++ ys).length (startCodes xs.length ys) := by
    cases hcodes : startCodes xs.length ys with
    | nil =>
      simp only [firstStart, List.head?_nil, Option.map_none, Option.getD_none,
        List.length_append]
      omega
    | cons y rest =>
      have hy : y ∈ startCodes xs.length ys := by simp [hcodes]
      have hybounds := mem_startCodes hy
      have hne : y.1 ≠ xs.length := by
        intro heq
        exact hno ⟨y, by rw [hsame]; exact List.mem_append_right _ hy, heq⟩
      simp only [firstStart, List.head?_cons, Option.map_some, Option.getD_some]
      omega
  refine ⟨_, hbeyond, ?_⟩
  rw [units, hsame, hlast, unitsBetween_append, unitsBetween_append, Nat.zero_add]
  refine List.mem_append_left _ (List.mem_append_right _ (List.mem_append_left _
    (mem_unitAt.mpr ⟨rfl, ?_⟩)))
  show x.1 + x.2 < firstStart (xs ++ ys).length (startCodes xs.length ys)
  omega

/-- A cut that leaves the spans of the units as they are fits: those behind it may
be any that begin behind it. -/
theorem cutFits_of_spans (hys : ys ≠ []) {spans : List (ℕ × ℕ)}
    (hspans : ∀ s ∈ spans, xs.length ≤ s.1)
    (h : (units 0 (xs ++ ys)).map CodedUnit.span = (units 0 xs).map CodedUnit.span ++ spans) :
    CutFits xs ys := by
  have hkept : ∀ s ∈ (units 0 xs).map CodedUnit.span,
      s ∈ (units 0 (xs ++ ys)).map CodedUnit.span := by
    intro s hs
    rw [h]
    exact List.mem_append_left _ hs
  by_cases hnone : startCodes 0 xs = []
  · left
    refine ⟨hnone, ?_⟩
    intro u hu
    have hmem : u.span ∈ (units 0 (xs ++ ys)).map CodedUnit.span := List.mem_map_of_mem hu
    rw [h, units, hnone] at hmem
    exact hspans _ hmem
  · right
    obtain ⟨front, x, hlast⟩ : ∃ front x, startCodes 0 xs = front ++ [x] :=
      ⟨_, _, (List.dropLast_append_getLast hnone).symm⟩
    have hx : x ∈ startCodes 0 xs := by simp [hlast]
    have hxbounds := mem_startCodes hx
    have hsame := startCodes_of_spans hlast hkept
    refine ⟨?_, ?_⟩
    · intro y hy
      rw [hsame, List.mem_append] at hy
      rcases hy with hy | hy
      · have hbounds := mem_startCodes hy
        omega
      · have hbounds := mem_startCodes hy
        omega
    · by_contra hno
      obtain ⟨stop, hbeyond, hunit⟩ := exists_unit_beyond hys hlast hsame hno
      have hspan : (x.1, stop) ∈ (units 0 (xs ++ ys)).map CodedUnit.span :=
        List.mem_map.mpr ⟨_, hunit, rfl⟩
      rw [h, List.mem_append] at hspan
      rcases hspan with hspan | hspan
      · obtain ⟨u, hu, huspan⟩ := List.mem_map.mp hspan
        have hstop := (mem_units hu).2.2
        have hend := (Prod.mk.inj huspan).2
        omega
      · have hbehind := hspans _ hspan
        omega

end SameSpans

theorem units_append_of_cutFits (i : ℕ) {xs ys : List UInt8} (hcut : CutFits xs ys) :
    units i (xs ++ ys) = units i xs ++ units (i + xs.length) ys := by
  have hwhole := units_shift i 0 (xs ++ ys)
  have hfront := units_shift i 0 xs
  rw [Nat.add_zero] at hwhole hfront
  rw [hwhole, hfront, units_of_cutFits hcut, List.map_append, units_shift i xs.length]

theorem cutFits_of_spans_at (i : ℕ) {xs ys : List UInt8} (hys : ys ≠ []) {spans : List (ℕ × ℕ)}
    (hspans : ∀ s ∈ spans, i + xs.length ≤ s.1)
    (h : (units i (xs ++ ys)).map CodedUnit.span = (units i xs).map CodedUnit.span ++ spans) :
    CutFits xs ys := by
  -- the same spans, counted from the beginning of the stream
  have hback : ∀ zs : List UInt8, (units 0 zs).map CodedUnit.span =
      ((units i zs).map CodedUnit.span).map fun s => (s.1 - i, s.2 - i) := by
    intro zs
    have hshift := units_shift i 0 zs
    rw [Nat.add_zero] at hshift
    rw [hshift, List.map_map, List.map_map]
    apply List.map_congr_left
    intro u _
    simp [CodedUnit.span, CodedUnit.shift]
  have hstarts : ∀ s ∈ spans.map fun s => (s.1 - i, s.2 - i), xs.length ≤ s.1 := by
    intro s hs
    obtain ⟨t, ht, rfl⟩ := List.mem_map.mp hs
    have hstart := hspans t ht
    dsimp only
    omega
  apply cutFits_of_spans hys hstarts
  rw [hback, hback, h, List.map_append]

theorem units_of_short {i : ℕ} {xs : List UInt8} (h : xs.length < 4) : units i xs = [] := by
  rw [units, startCodes_of_short i h]
  rfl

/-- Four bytes hold a unit when they are a short code and its header. -/
theorem units_of_four {i : ℕ} {xs : List UInt8} (h : xs.length = 4) :
    units i xs ≠ [] ↔ ∃ header, xs = [0, 0, 1, header] := by
  obtain ⟨a, b, c, d, rest, rfl⟩ := exists_four (Nat.le_of_eq h.symm)
  have hrest : rest = [] := by
    apply List.eq_nil_of_length_eq_zero
    simp only [List.length_cons] at h
    omega
  subst hrest
  have hnone : ∀ n, startCodes n [b, c, d] = [] := fun n => startCodes_of_short n (by simp)
  constructor
  · intro hunit
    by_cases h4 : a = 0 ∧ b = 0 ∧ c = 0 ∧ d = 1
    · simp [units, startCodes, h4, unitsBetween, unitAt, firstStart] at hunit
    · by_cases h3 : a = 0 ∧ b = 0 ∧ c = 1
      · obtain ⟨rfl, rfl, rfl⟩ := h3
        exact ⟨d, rfl⟩
      · rw [units, startCodes, if_neg h4, if_neg h3, hnone] at hunit
        exact absurd rfl hunit
  · intro hcode
    obtain ⟨header, hheader⟩ := hcode
    obtain ⟨rfl, rfl, rfl, rfl⟩ : a = 0 ∧ b = 0 ∧ c = 1 ∧ d = header := by simpa using hheader
    simp [units, startCodes, unitsBetween, unitAt, firstStart]

end Dvrft.StartCodes

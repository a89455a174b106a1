import Mathlib.Data.List.Basic
import Mathlib.Data.List.Forall2
import Mathlib.Data.Nat.Notation
import Mathlib.Tactic.Ring
import Mathlib.Tactic.NormNum

/-!
Machine arithmetic with its failures. A call ends with a value, with an error
of its own type, or with a panic. Sizes and file offsets are natural numbers;
the additions and multiplications that could leave 64 bits say so, and what
happens then depends on whether the build checks for overflow. Little-endian
words are read and written digit by digit in base 256.
-/

namespace Dvrft.Machine

variable {α ε : Type}

inductive Failure (ε : Type) where
  | error (e : ε)
  | panic
  deriving DecidableEq, Repr

abbrev Outcome (ε α : Type) := Except (Failure ε) α

def fail (e : ε) : Outcome ε α := .error (.error e)

def panicked : Outcome ε α := .error .panic

/-- A result that is a value or an error, never a panic. -/
def ofExcept : Except ε α → Outcome ε α
  | .ok a => .ok a
  | .error e => fail e

inductive Build where
  | debug
  | release
  deriving DecidableEq, Repr

namespace Build

/-- A 64-bit result: exact, or a panic or a wrapped value on overflow. -/
def fit (build : Build) (n : ℕ) : Outcome ε ℕ :=
  if n < 2 ^ 64 then .ok n
  else match build with
    | debug => panicked
    | release => .ok (n % 2 ^ 64)

def add (build : Build) (a b : ℕ) : Outcome ε ℕ := build.fit (a + b)

def mul (build : Build) (a b : ℕ) : Outcome ε ℕ := build.fit (a * b)

/-- The same for `u32`. -/
def fitU32 (build : Build) (n : ℕ) : Outcome ε ℕ :=
  if n < 2 ^ 32 then .ok n
  else match build with
    | debug => panicked
    | release => .ok (n % 2 ^ 32)

/-- The same for `i32`. -/
def fitI32 (build : Build) (z : ℤ) : Outcome ε ℤ :=
  if -2 ^ 31 ≤ z ∧ z < 2 ^ 31 then .ok z
  else match build with
    | debug => panicked
    | release => .ok ((z + 2 ^ 31) % 2 ^ 32 - 2 ^ 31)

theorem add_of_lt (build : Build) {a b : ℕ} (h : a + b < 2 ^ 64) :
    (build.add a b : Outcome ε ℕ) = .ok (a + b) := if_pos h

theorem mul_of_lt (build : Build) {a b : ℕ} (h : a * b < 2 ^ 64) :
    (build.mul a b : Outcome ε ℕ) = .ok (a * b) := if_pos h

theorem debug_add_of_le {a b : ℕ} (h : 2 ^ 64 ≤ a + b) :
    (debug.add a b : Outcome ε ℕ) = panicked := if_neg (Nat.not_lt.mpr h)

theorem release_add_of_le {a b : ℕ} (h : 2 ^ 64 ≤ a + b) :
    (release.add a b : Outcome ε ℕ) = .ok ((a + b) % 2 ^ 64) := if_neg (Nat.not_lt.mpr h)

/-- What an addition that does not end the program delivers, to 64 bits. -/
theorem add_ok_mod {build : Build} {a b c : ℕ} (h : (build.add a b : Outcome ε ℕ) = .ok c) :
    c % 2 ^ 64 = (a + b) % 2 ^ 64 := by
  unfold add fit at h
  split_ifs at h with hfits
  · rw [Except.ok.inj h]
  · cases build with
    | debug => simp [panicked] at h
    | release => rw [← Except.ok.inj h, Nat.mod_mod]

end Build

/-- `xs[start..stop]`. -/
def slice (xs : List α) (start stop : ℕ) : Outcome ε (List α) :=
  if start ≤ stop ∧ stop ≤ xs.length then .ok ((xs.drop start).take (stop - start))
  else panicked

/-- `xs[i]`. -/
def index (xs : List α) (i : ℕ) : Outcome ε α :=
  match xs[i]? with
  | some a => .ok a
  | none => panicked

theorem slice_of_le {xs : List α} {start stop : ℕ} (h : start ≤ stop) (hlen : stop ≤ xs.length) :
    (slice xs start stop : Outcome ε (List α)) = .ok ((xs.drop start).take (stop - start)) :=
  if_pos ⟨h, hlen⟩

theorem index_of_lt {xs : List α} {i : ℕ} (h : i < xs.length) :
    (index xs i : Outcome ε α) = .ok xs[i] := by
  simp [index, List.getElem?_eq_getElem h]

theorem bind_ok {β : Type} {x : Except ε α} {f : α → Except ε β} {b : β} :
    (x >>= f) = .ok b ↔ ∃ a, x = .ok a ∧ f a = .ok b := by
  cases x with
  | error e => simp [bind, Except.bind]
  | ok a => simp [bind, Except.bind]

theorem exists_bind_ok {β : Type} (x : Except ε α) (f : α → Except ε β) :
    (∃ b, (x >>= f) = .ok b) ↔ ∃ a, x = .ok a ∧ ∃ b, f a = .ok b := by
  cases x <;> simp [bind, Except.bind]

theorem exists_ok {x : Except ε α} (h : x.isOk = true) : ∃ a, x = .ok a := by
  cases x with
  | error e => simp [Except.isOk, Except.toBool] at h
  | ok a => exact ⟨a, rfl⟩

/-- A traversal succeeds exactly when every step does. -/
theorem mapM_ok {β : Type} {f : α → Except ε β} {xs : List α} {out : List β} :
    xs.mapM f = .ok out ↔ List.Forall₂ (fun a b => f a = .ok b) xs out := by
  induction xs generalizing out with
  | nil => simp [pure, Except.pure, eq_comm]
  | cons x xs ih =>
    rw [List.mapM_cons, bind_ok, List.forall₂_cons_left_iff]
    simp only [bind_ok, ih, pure, Except.pure, Except.ok.injEq]
    constructor
    · rintro ⟨b, hb, bs, hbs, rfl⟩
      exact ⟨b, bs, hb, hbs, rfl⟩
    · rintro ⟨b, bs, hb, hbs, rfl⟩
      exact ⟨b, hb, bs, hbs, rfl⟩

theorem mem_of_mapM_ok {β : Type} {f : α → Except ε β} {xs : List α} {out : List β}
    (h : xs.mapM f = .ok out) : ∀ b ∈ out, ∃ a ∈ xs, f a = .ok b := by
  have hall := mapM_ok.mp h
  clear h
  induction hall with
  | nil => simp
  | cons hab _ ih =>
    intro b hb
    rcases List.mem_cons.mp hb with rfl | hb
    · exact ⟨_, by simp, hab⟩
    · obtain ⟨a, ha, hab⟩ := ih b hb
      exact ⟨a, by simp [ha], hab⟩

theorem mapM_isOk {β : Type} {f : α → Except ε β} {xs : List α}
    (h : ∀ x ∈ xs, ∃ b, f x = .ok b) : ∃ out, xs.mapM f = .ok out := by
  induction xs with
  | nil => exact ⟨[], rfl⟩
  | cons x xs ih =>
    obtain ⟨b, hb⟩ := h x (by simp)
    obtain ⟨out, hout⟩ := ih fun y hy => h y (by simp [hy])
    exact ⟨b :: out, mapM_ok.mpr (.cons hb (mapM_ok.mp hout))⟩

theorem exists_forall₂ {β : Type} {f : α → Except ε β} {xs : List α}
    (h : ∀ x ∈ xs, ∃ b, f x = .ok b) : ∃ out, List.Forall₂ (fun a b => f a = .ok b) xs out := by
  obtain ⟨out, hout⟩ := mapM_isOk h
  exact ⟨out, mapM_ok.mp hout⟩

theorem mapM_append_error {β : Type} {f : α → Except ε β} {xs : List α} {x : α} {out : List β}
    {e : ε} (hxs : xs.mapM f = .ok out) (hx : f x = .error e) :
    (xs ++ [x]).mapM f = .error e := by
  rw [List.mapM_append, hxs, List.mapM_cons, hx]
  rfl

/-- A fold whose steps all succeed and keep an invariant succeeds and keeps it. -/
theorem foldlM_total {σ : Type} {f : σ → α → Except ε σ} {xs : List α} {P : σ → Prop}
    (hstep : ∀ s, ∀ x ∈ xs, P s → ∃ s', f s x = .ok s' ∧ P s') (s : σ) (hs : P s) :
    ∃ s', xs.foldlM f s = .ok s' ∧ P s' := by
  induction xs generalizing s with
  | nil => exact ⟨s, rfl, hs⟩
  | cons x xs ih =>
    obtain ⟨s1, h1, hs1⟩ := hstep s x (by simp) hs
    obtain ⟨s', h', hs'⟩ := ih (fun s y hy => hstep s y (by simp [hy])) s1 hs1
    refine ⟨s', ?_, hs'⟩
    rw [List.foldlM_cons, h1]
    exact h'

/-- Two folds whose steps keep a relation end related when the first ends well. -/
theorem foldlM_simulates {σ τ : Type} {f : σ → α → Except ε σ} {g : τ → α → Except ε τ}
    {xs : List α} {R : σ → τ → Prop}
    (hstep : ∀ s t s', ∀ x ∈ xs, R s t → f s x = .ok s' → ∃ t', g t x = .ok t' ∧ R s' t')
    {s s' : σ} {t : τ} (hst : R s t) (h : xs.foldlM f s = .ok s') :
    ∃ t', xs.foldlM g t = .ok t' ∧ R s' t' := by
  induction xs generalizing s t with
  | nil =>
    obtain rfl := Except.ok.inj h
    exact ⟨t, rfl, hst⟩
  | cons x xs ih =>
    rw [List.foldlM_cons] at h
    obtain ⟨s1, h1, h⟩ := bind_ok.mp h
    obtain ⟨t1, ht1, hst1⟩ := hstep s t s1 x (by simp) hst h1
    obtain ⟨t', ht', hst'⟩ := ih (fun s t s' y hy => hstep s t s' y (by simp [hy])) hst1 h
    refine ⟨t', ?_, hst'⟩
    rw [List.foldlM_cons, ht1]
    exact ht'

/-- What every step of a fold keeps holds at its end. -/
theorem foldlM_invariant {σ : Type} {f : σ → α → Except ε σ} {xs : List α} {P : σ → Prop}
    (hstep : ∀ s s', ∀ x ∈ xs, P s → f s x = .ok s' → P s') {s s' : σ} (hs : P s)
    (h : xs.foldlM f s = .ok s') : P s' := by
  have hsimulates := foldlM_simulates (g := fun (_ : Unit) _ => (.ok () : Except ε Unit))
    (R := fun s _ => P s) (fun s _ s' x hx hs hf => ⟨(), rfl, hstep s s' x hx hs hf⟩)
    (t := ()) hs h
  exact hsimulates.elim fun _ ht => ht.2

/-- What some steps of a fold set and the others leave alone has, at its end, the
value that was set last. -/
theorem foldlM_last_set {σ β : Type} {f : σ → α → Except ε σ} (get : σ → β) (set : α → Option β)
    (hstep : ∀ s s' x, f s x = .ok s' → get s' = (set x).getD (get s)) {xs : List α} {s s' : σ}
    (h : xs.foldlM f s = .ok s') : get s' = (xs.filterMap set).getLastD (get s) := by
  induction xs generalizing s with
  | nil =>
    rw [← Except.ok.inj h]
    rfl
  | cons x rest ih =>
    rw [List.foldlM_cons] at h
    obtain ⟨next, hnext, h⟩ := bind_ok.mp h
    rw [ih h, hstep s next x hnext, List.filterMap_cons]
    cases set x with
    | none => rfl
    | some b =>
      rw [List.getLastD_cons]
      rfl

theorem mapM_congr {β : Type} {f g : α → Except ε β} {xs : List α}
    (h : ∀ x ∈ xs, f x = g x) : xs.mapM f = xs.mapM g := by
  induction xs with
  | nil => rfl
  | cons x xs ih =>
    rw [List.mapM_cons, List.mapM_cons, h x (by simp), ih fun y hy => h y (by simp [hy])]

/-- What a step yields, if it succeeds with a value. -/
def yields {β : Type} (f : α → Except ε (Option β)) (a : α) : Option β :=
  match f a with
  | .ok b => b
  | .error _ => none

theorem yields_eq_some {β : Type} {f : α → Except ε (Option β)} {a : α} {b : β} :
    yields f a = some b ↔ f a = .ok (some b) := by
  unfold yields
  cases f a <;> simp

/-- A traversal that keeps the values it finds: every step succeeds, and what is kept
is what each element yields. -/
theorem mapM_filterMap_ok {β : Type} {f : α → Except ε (Option β)} {xs : List α} {out : List β} :
    (xs.mapM f >>= fun found => .ok (found.filterMap id)) = .ok out ↔
      (∀ x ∈ xs, ∃ b, f x = .ok b) ∧ out = xs.filterMap (yields f) := by
  induction xs generalizing out with
  | nil => simp [pure, Except.pure, bind, Except.bind, eq_comm]
  | cons x xs ih =>
    rw [List.mapM_cons]
    cases hx : f x with
    | error e => simp [hx, bind, Except.bind]
    | ok b =>
      have hyields : yields f x = b := by simp [yields, hx]
      cases hrest : xs.mapM f with
      | error e =>
        rw [hrest] at ih
        simp only [bind, Except.bind, reduceCtorEq, false_iff, List.mem_cons, forall_eq_or_imp,
          not_and] at ih ⊢
        intro hall hout
        exact ih hall.2 rfl
      | ok found =>
        rw [hrest] at ih
        have hall := (@ih (found.filterMap id)).mp rfl
        simp only [bind, Except.bind, pure, Except.pure, Except.ok.injEq, List.mem_cons,
          forall_eq_or_imp, hx, List.filterMap_cons, hyields, id_eq]
        rw [← hall.2]
        constructor
        · intro hout
          exact ⟨⟨⟨b, rfl⟩, hall.1⟩, hout.symm⟩
        · intro hout
          exact hout.2.symm

@[simp] theorem ok_bind {β : Type} (a : α) (f : α → Except ε β) :
    ((.ok a : Except ε α) >>= f) = f a := rfl

@[simp] theorem error_bind {β : Type} (e : ε) (f : α → Except ε β) :
    ((.error e : Except ε α) >>= f) = .error e := rfl

theorem map_bind {β γ : Type} (x : Except ε α) (f : α → Except ε β) (g : β → γ) :
    (x >>= f).map g = x >>= fun a => (f a).map g := by
  cases x <;> rfl

theorem ofExcept_eq_ok {x : Except ε α} {a : α} : ofExcept x = .ok a ↔ x = .ok a := by
  cases x <;> simp [ofExcept, fail]

/-- A computation that has no error of its own: it ends with a value or a panic. -/
def OnlyPanics (x : Outcome ε α) : Prop := ∀ e, x ≠ fail e

theorem onlyPanics_ok (a : α) : OnlyPanics (.ok a : Outcome ε α) := by
  intro e h
  simp [fail] at h

theorem onlyPanics_panicked : OnlyPanics (panicked : Outcome ε α) := by
  intro e h
  simp [fail, panicked] at h

theorem OnlyPanics.bind {β : Type} {x : Outcome ε α} {f : α → Outcome ε β}
    (hx : OnlyPanics x) (hf : ∀ a, OnlyPanics (f a)) : OnlyPanics (x >>= f) := by
  intro e h
  cases x with
  | ok a => exact hf a e h
  | error failure =>
    apply hx e
    simp only [error_bind] at h
    simpa [fail] using h

theorem OnlyPanics.eq_panicked {x : Outcome ε α} (hx : OnlyPanics x)
    (hno : ∀ a, x ≠ .ok a) : x = panicked := by
  cases x with
  | ok a => exact absurd rfl (hno a)
  | error failure =>
    cases failure with
    | error e => exact absurd rfl (hx e)
    | panic => rfl

theorem onlyPanics_foldlM {σ : Type} {f : σ → α → Outcome ε σ} (hf : ∀ s x, OnlyPanics (f s x))
    (xs : List α) (s : σ) : OnlyPanics (xs.foldlM f s) := by
  induction xs generalizing s with
  | nil => exact onlyPanics_ok s
  | cons x xs ih =>
    rw [List.foldlM_cons]
    exact (hf s x).bind ih

theorem onlyPanics_mapM {β : Type} {f : α → Outcome ε β} (hf : ∀ x, OnlyPanics (f x))
    (xs : List α) : OnlyPanics (xs.mapM f) := by
  induction xs with
  | nil => exact onlyPanics_ok []
  | cons x xs ih =>
    rw [List.mapM_cons]
    exact (hf x).bind fun b => ih.bind fun bs => onlyPanics_ok _

theorem Build.onlyPanics_add (build : Build) (a b : ℕ) :
    OnlyPanics (build.add a b : Outcome ε ℕ) := by
  unfold Build.add Build.fit
  split_ifs
  · exact onlyPanics_ok _
  · cases build with
    | debug => exact onlyPanics_panicked
    | release => exact onlyPanics_ok _

theorem Build.onlyPanics_fitI32 (build : Build) (z : ℤ) :
    OnlyPanics (build.fitI32 z : Outcome ε ℤ) := by
  unfold Build.fitI32
  split_ifs
  · exact onlyPanics_ok _
  · cases build with
    | debug => exact onlyPanics_panicked
    | release => exact onlyPanics_ok _

theorem onlyPanics_slice (xs : List α) (start stop : ℕ) :
    OnlyPanics (slice xs start stop : Outcome ε (List α)) := by
  unfold slice
  split_ifs
  · exact onlyPanics_ok _
  · exact onlyPanics_panicked

/-- `n as i64`. -/
def asI64 (n : ℕ) : ℤ :=
  if n % 2 ^ 64 < 2 ^ 63 then ((n % 2 ^ 64 : ℕ) : ℤ) else ((n % 2 ^ 64 : ℕ) : ℤ) - 2 ^ 64

/-- `z as u64`. -/
def asU64 (z : ℤ) : ℕ := (z % 2 ^ 64).toNat

theorem asI64_of_lt {n : ℕ} (h : n < 2 ^ 63) : asI64 n = n := by
  unfold asI64
  rw [Nat.mod_eq_of_lt (by omega), if_pos h]

theorem asI64_lt (n : ℕ) : asI64 n < 2 ^ 63 := by
  unfold asI64
  split_ifs <;> omega

theorem asI64_cases {n : ℕ} (h : n < 2 ^ 64) :
    (n < 2 ^ 63 ∧ asI64 n = n) ∨ (2 ^ 63 ≤ n ∧ asI64 n = (n : ℤ) - 2 ^ 64) := by
  unfold asI64
  rw [Nat.mod_eq_of_lt h]
  split_ifs <;> omega

/-- Casting to the signed type and back keeps the low 64 bits. -/
theorem asU64_asI64 (n : ℕ) : asU64 (asI64 n) = n % 2 ^ 64 := by
  unfold asU64 asI64
  split_ifs with hsmall <;> omega

theorem asU64_natCast (n : ℕ) : asU64 n = n % 2 ^ 64 := by
  unfold asU64
  omega

def leBytes : ℕ → ℕ → List UInt8
  | 0, _ => []
  | width + 1, n => UInt8.ofNat (n % 256) :: leBytes width (n / 256)

def ofLeBytes : List UInt8 → ℕ
  | [] => 0
  | b :: rest => b.toNat + 256 * ofLeBytes rest

def ofBeBytes (bytes : List UInt8) : ℕ := ofLeBytes bytes.reverse

@[simp] theorem length_leBytes (width n : ℕ) : (leBytes width n).length = width := by
  induction width generalizing n with
  | zero => rfl
  | succ width ih => simp [leBytes, ih]

/-- Reading a word back gives it reduced to its width. -/
theorem ofLeBytes_leBytes (width n : ℕ) : ofLeBytes (leBytes width n) = n % 256 ^ width := by
  induction width generalizing n with
  | zero => simp [leBytes, ofLeBytes, Nat.mod_one]
  | succ width ih =>
    have hbyte : (UInt8.ofNat (n % 256)).toNat = n % 256 := by
      rw [UInt8.toNat_ofNat']
      omega
    rw [leBytes, ofLeBytes, ih, hbyte, pow_succ', Nat.mod_mul]

theorem ofLeBytes_lt (bytes : List UInt8) : ofLeBytes bytes < 256 ^ bytes.length := by
  induction bytes with
  | nil => simp [ofLeBytes]
  | cons b rest ih =>
    have hb : b.toNat < 256 := b.toNat_lt
    rw [ofLeBytes, List.length_cons, pow_succ']
    omega

theorem ofBeBytes_lt (bytes : List UInt8) : ofBeBytes bytes < 256 ^ bytes.length := by
  simpa [ofBeBytes] using ofLeBytes_lt bytes.reverse

end Dvrft.Machine

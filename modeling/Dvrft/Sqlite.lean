import Dvrft.Machine
import Mathlib.Data.List.Forall2
import Mathlib.Data.List.Sort

/-!
SQLite as a client sees it: cells of any storage class and the typed getters
that read them, comparisons and orderings across classes, and a query as a
sequence of answers of which each may be an error. A query that fails at one
row delivers none.
-/

namespace Dvrft.Sqlite

open Machine

/-- Why SQLite refused an operation, or a column had another type. -/
inductive SqlError where
  | sqliteFailure (code : ℕ)
  | invalidColumnType (column : ℕ)
  | integralValueOutOfRange (column : ℕ) (value : ℤ)
  | fromSqlConversionFailure (column : ℕ)
  | queryReturnedNoRows
  deriving DecidableEq, Repr

inductive SqlValue where
  | null
  | integer (n : ℤ)
  | real (x : Float)
  | text (s : String)
  /-- A text that is not UTF-8; SQLite keeps the bytes it is given. -/
  | malformedText (bytes : ByteArray) (malformed : ¬ bytes.IsValidUTF8)
  | blob (bytes : List UInt8)

/-- What a column of reals keeps of a number: a zero without its sign. -/
def unsignedZero (x : Float) : Float := if x == 0.0 then 0.0 else x

namespace SqlValue

/-- `row.get::<_, i64>`. -/
def getI64 (column : ℕ) : SqlValue → Except SqlError ℤ
  | integer n => .ok n
  | _ => .error (.invalidColumnType column)

/-- `row.get::<_, u8>`. -/
def getU8 (column : ℕ) : SqlValue → Except SqlError ℕ
  | integer n =>
    if 0 ≤ n ∧ n < 256 then .ok n.toNat else .error (.integralValueOutOfRange column n)
  | _ => .error (.invalidColumnType column)

/-- `row.get::<_, f64>`. -/
def getF64 (column : ℕ) : SqlValue → Except SqlError Float
  | real x => .ok x
  | integer n => .ok (Float.ofInt n)
  | _ => .error (.invalidColumnType column)

def getString (column : ℕ) : SqlValue → Except SqlError String
  | text s => .ok s
  | malformedText _ _ => .error (.fromSqlConversionFailure column)
  | _ => .error (.invalidColumnType column)

/-- `row.get::<_, Option<String>>`. -/
def getOptString (column : ℕ) : SqlValue → Except SqlError (Option String)
  | null => .ok none
  | text s => .ok (some s)
  | malformedText _ _ => .error (.fromSqlConversionFailure column)
  | _ => .error (.invalidColumnType column)

def ofBool (b : Bool) : SqlValue := integer (if b then 1 else 0)

def ofOptString : Option String → SqlValue
  | none => null
  | some s => text s

/-- SQLite stores a NaN as NULL. -/
def ofFloat (x : Float) : SqlValue := if x.isNaN then null else real (unsignedZero x)

theorem ofFloat_of_number {x : Float} (h : x.isNaN = false) :
    ofFloat x = real (unsignedZero x) := by
  rw [ofFloat, h]
  rfl

/-- An integer against a real: by the integral part, then by the rest. -/
def compareIntReal (n : ℤ) (x : Float) : Ordering :=
  if x < Float.ofInt (-2 ^ 63) then .gt
  else if Float.ofInt (2 ^ 63) ≤ x then .lt
  else match compare n x.toInt64.toInt with
    | .eq => if Float.ofInt n < x then .lt else if x < Float.ofInt n then .gt else .eq
    | order => order

/-- The order of storage classes: NULL, numbers, texts, blobs. -/
def rank : SqlValue → ℕ
  | null => 0
  | integer _ => 1
  | real _ => 1
  | text _ => 2
  | malformedText _ _ => 2
  | blob _ => 3

def bytesOf (text : ByteArray) : List ℕ := text.toList.map UInt8.toNat

def compareValues : SqlValue → SqlValue → Ordering
  | integer a, integer b => compare a b
  | integer a, real x => compareIntReal a x
  | real x, integer b => (compareIntReal b x).swap
  | real x, real y => if x < y then .lt else if y < x then .gt else .eq
  | text s, text t => compare s t
  | text s, malformedText t _ => compare (bytesOf s.toByteArray) (bytesOf t)
  | malformedText s _, text t => compare (bytesOf s) (bytesOf t.toByteArray)
  | malformedText s _, malformedText t _ => compare (bytesOf s) (bytesOf t)
  | blob xs, blob ys => compare (xs.map UInt8.toNat) (ys.map UInt8.toNat)
  | a, b => compare a.rank b.rank

/-- A comparison with a parameter; with NULL on either side it never holds. -/
def holds (value : SqlValue) (test : Ordering → Bool) (param : SqlValue) : Bool :=
  match value, param with
  | null, _ => false
  | _, null => false
  | v, p => test (v.compareValues p)

/-- `CAST(value AS INTEGER)`, by the leading digits of a text. -/
def castInteger : SqlValue → ℤ
  | null => 0
  | integer n => n
  | real x => x.toInt64.toInt
  | text s => castText s.toList
  | malformedText bytes _ => castText (bytes.toList.map fun b => Char.ofNat b.toNat)
  | blob bytes => castText (bytes.map fun b => Char.ofNat b.toNat)
where
  castText (chars : List Char) : ℤ :=
    let (sign, digits) : ℤ × List Char :=
      match chars.dropWhile (fun c => c == ' ' || (9 ≤ c.toNat && c.toNat ≤ 13)) with
      | '-' :: rest => (-1, rest)
      | '+' :: rest => (1, rest)
      | rest => (1, rest)
    let n := sign * (Nat.ofDigitChars 10 (digits.takeWhile Char.isDigit) 0 : ℤ)
    max (-2 ^ 63) (min (2 ^ 63 - 1) n)

end SqlValue

namespace SqlValue

def isInteger : SqlValue → Bool
  | integer _ => true
  | _ => false

/-- A text that a `String` can hold. -/
def isText : SqlValue → Bool
  | text _ => true
  | _ => false

def isOptText : SqlValue → Bool
  | null => true
  | text _ => true
  | _ => false

theorem getI64_isOk (column : ℕ) (v : SqlValue) :
    (∃ n, v.getI64 column = .ok n) ↔ v.isInteger = true := by
  cases v <;> simp [getI64, isInteger]

theorem getString_isOk (column : ℕ) (v : SqlValue) :
    (∃ s, v.getString column = .ok s) ↔ v.isText = true := by
  cases v <;> simp [getString, isText]

theorem getOptString_isOk (column : ℕ) (v : SqlValue) :
    (∃ s, v.getOptString column = .ok s) ↔ v.isOptText = true := by
  cases v <;> simp [getOptString, isOptText]

end SqlValue

/-- `ORDER BY key ASC`; rows with equal keys stay in the order of their ids. -/
def orderBy {ρ : Type} (key : ρ → SqlValue) (rows : List ρ) : List ρ :=
  rows.insertionSort fun a b => ((key a).compareValues (key b)).isLE

/-- `LIMIT` and `OFFSET`; a bound above the 64-bit integers is no integer. -/
def page {ρ : Type} (limit offset : Option ℕ) (rows : List ρ) : Except SqlError (List ρ) :=
  match limit with
  | none => .ok rows
  | some limit =>
    if 2 ^ 63 ≤ limit ∨ 2 ^ 63 ≤ offset.getD 0 then .error (.sqliteFailure 20)
    else .ok ((rows.drop (offset.getD 0)).take limit)

theorem perm_orderBy {ρ : Type} (key : ρ → SqlValue) (rows : List ρ) :
    (orderBy key rows).Perm rows := List.perm_insertionSort _ rows

theorem length_orderBy {ρ : Type} (key : ρ → SqlValue) (rows : List ρ) :
    (orderBy key rows).length = rows.length := (perm_orderBy key rows).length_eq

/-- A change of columns that the order does not look at commutes with it. -/
theorem orderBy_map {ρ : Type} (key : ρ → SqlValue) (f : ρ → ρ)
    (hkey : ∀ row, key (f row) = key row) (rows : List ρ) :
    orderBy key (rows.map f) = (orderBy key rows).map f := by
  unfold orderBy
  refine (List.map_insertionSort _ _ f rows fun a _ b _ => ?_).symm
  rw [hkey, hkey]

/-- `AUTOINCREMENT`, after the last id that was given out. -/
def nextIdAfter (last : ℤ) (ids : List ℤ) : ℤ := ids.foldl max last + 1

theorem nextIdAfter_of_le {last : ℤ} {ids : List ℤ} (h : ∀ id ∈ ids, id ≤ last) :
    nextIdAfter last ids = last + 1 := by
  have hmax : ids.foldl max last = last := by
    induction ids with
    | nil => rfl
    | cons id rest ih =>
      rw [List.foldl_cons, max_eq_left (h id List.mem_cons_self)]
      exact ih fun other hother => h other (List.mem_cons_of_mem _ hother)
  rw [nextIdAfter, hmax]

/-- The next id of a table that has a row for every id that was given out. -/
def nextId (ids : List ℤ) : ℤ := nextIdAfter 0 ids

def succeeds (outcome : Option SqlError) : Except SqlError Unit :=
  match outcome with
  | some e => .error e
  | none => .ok ()

/-- Rows of a query, read one by one; an error ends the query without rows. -/
def fetchFrom {ρ α : Type} (answer : ℕ → Option SqlError) (read : ρ → Except SqlError α) :
    ℕ → List ρ → Except SqlError (List α)
  | k, [] => do
    succeeds (answer k)
    .ok []
  | k, row :: rest => do
    succeeds (answer k)
    let a ← read row
    let tail ← fetchFrom answer read (k + 1) rest
    .ok (a :: tail)

theorem fetchFrom_map {ρ α : Type} (answer : ℕ → Option SqlError)
    (read : ρ → Except SqlError α) (f : ρ → ρ) (hread : ∀ row, read (f row) = read row)
    (k : ℕ) (rows : List ρ) :
    fetchFrom answer read k (rows.map f) = fetchFrom answer read k rows := by
  induction rows generalizing k with
  | nil => rfl
  | cons row rest ih => simp only [List.map_cons, fetchFrom, hread, ih]

theorem succeeds_eq_ok (outcome : Option SqlError) (u : Unit) :
    succeeds outcome = .ok u ↔ outcome = none := by
  cases outcome <;> simp [succeeds]

/-- A query delivers rows exactly when no step fails and every row is read. -/
theorem fetchFrom_ok {ρ α : Type} (answer : ℕ → Option SqlError) (read : ρ → Except SqlError α)
    (k : ℕ) (rows : List ρ) (out : List α) :
    fetchFrom answer read k rows = .ok out ↔
      (∀ j ≤ rows.length, answer (k + j) = none) ∧
        List.Forall₂ (fun row a => read row = .ok a) rows out := by
  induction rows generalizing k out with
  | nil =>
    simp only [fetchFrom, bind_ok, succeeds_eq_ok, List.forall₂_nil_left_iff]
    simp [eq_comm]
  | cons row rest ih =>
    simp only [fetchFrom, bind_ok, succeeds_eq_ok, ih, List.forall₂_cons_left_iff]
    constructor
    · rintro ⟨-, hk, a, ha, tail, ⟨hsteps, htail⟩, hout⟩
      refine ⟨?_, a, tail, ha, htail, (Except.ok.inj hout).symm⟩
      intro j hj
      cases j with
      | zero => exact hk
      | succ j =>
        have hstep := hsteps j (by simpa using hj)
        rwa [Nat.add_assoc, Nat.add_comm 1 j] at hstep
    · rintro ⟨hsteps, a, tail, ha, htail, rfl⟩
      refine ⟨(), hsteps 0 (Nat.zero_le _), a, ha, tail, ⟨?_, htail⟩, rfl⟩
      intro j hj
      have hstep := hsteps (j + 1) (by simpa using hj)
      rwa [Nat.add_assoc, Nat.add_comm 1 j]

end Dvrft.Sqlite

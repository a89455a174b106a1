import Dvrft.Chunks

/-!
Sources that deliver their bytes in portions of their own choosing. A schedule
fixes, call by call, how many bytes the source is willing to deliver or the
error it reports; within those limits a call delivers between one and the
requested number of bytes until the end, then none. Reading until a buffer is
full does not depend on the schedule, and a block-by-block loop over such a
source is a fold over the blocks of its content.
-/

namespace Dvrft.ShortReads

open Chunks

variable {α ε δ σ : Type}

abbrev Schedule (ε : Type) := ℕ → Except ε ℕ

/-- A schedule whose calls all deliver. -/
def Legal (plan : Schedule ε) : Prop := ∀ i, ∃ n, plan i = .ok n

/-- The schedule that always delivers as much as was asked for. -/
def eager : Schedule ε := fun _ => .ok (2 ^ 64)

theorem eager_legal : Legal (eager : Schedule ε) := fun _ => ⟨_, rfl⟩

structure Reader (α ε : Type) where
  rest : List α
  calls : ℕ
  plan : Schedule ε

namespace Reader

def opened (content : List α) (plan : Schedule ε) : Reader α ε := ⟨content, 0, plan⟩

def advance (r : Reader α ε) (n : ℕ) : Reader α ε := ⟨r.rest.drop n, r.calls + 1, r.plan⟩

/-- One call: at least one byte and at most `len` of them, except at the end. -/
def read (r : Reader α ε) (len : ℕ) : Except ε (List α × Reader α ε) :=
  match r.plan r.calls with
  | .error e => .error e
  | .ok want =>
    let n := min (max 1 want) (min len r.rest.length)
    .ok (r.rest.take n, r.advance n)

/-- `while buf.len() < cap { read; if n == 0 break; }`. An error carries how
many bytes were already in the buffer. -/
def readLoop : ℕ → ℕ → List α → Reader α ε → Except (ε × ℕ) (List α × Reader α ε)
  | 0, _, buf, r => .ok (buf, r)
  | fuel + 1, cap, buf, r =>
    if buf.length < cap then
      match r.read (cap - buf.length) with
      | .error e => .error (e, buf.length)
      | .ok ([], r') => .ok (buf, r')
      | .ok (b :: bs, r') => readLoop fuel cap (buf ++ b :: bs) r'
    else .ok (buf, r)

/-- Every call but the last delivers a byte, so `cap` rounds always suffice. -/
def readFull (cap : ℕ) (r : Reader α ε) : Except (ε × ℕ) (List α × Reader α ε) :=
  readLoop cap cap [] r

end Reader

open Reader

theorem read_ok {r r' : Reader α ε} {len : ℕ} {chunk : List α}
    (h : r.read len = .ok (chunk, r')) :
    ∃ n, n ≤ len ∧ n ≤ r.rest.length ∧ (0 < len → r.rest ≠ [] → 0 < n) ∧
      chunk = r.rest.take n ∧ r' = r.advance n := by
  unfold Reader.read at h
  cases hplan : r.plan r.calls with
  | error e => simp [hplan] at h
  | ok want =>
    simp only [hplan, Except.ok.injEq, Prod.mk.injEq] at h
    obtain ⟨hchunk, hr'⟩ := h
    refine ⟨min (max 1 want) (min len r.rest.length), by omega, by omega, ?_,
      hchunk.symm, hr'.symm⟩
    intro hlen hne
    have hpos : 0 < r.rest.length := List.length_pos_iff.mpr hne
    omega

theorem read_legal (r : Reader α ε) (len : ℕ) (hlegal : Legal r.plan) :
    ∃ chunk r', r.read len = .ok (chunk, r') := by
  obtain ⟨n, hn⟩ := hlegal r.calls
  unfold Reader.read
  rw [hn]
  exact ⟨_, _, rfl⟩

/-- How many of the `available` bytes a call delivers. -/
def portion (plan : Schedule ε) (call available : ℕ) : ℕ :=
  match plan call with
  | .error _ => 0
  | .ok want => min (max 1 want) available

theorem read_portion (r : Reader α ε) (len : ℕ) (hlegal : Legal r.plan) :
    r.read len = .ok (r.rest.take (portion r.plan r.calls (min len r.rest.length)),
      r.advance (portion r.plan r.calls (min len r.rest.length))) := by
  obtain ⟨want, hwant⟩ := hlegal r.calls
  unfold Reader.read portion
  rw [hwant]

theorem portion_le (plan : Schedule ε) (call available : ℕ) :
    portion plan call available ≤ available := by
  unfold portion
  split
  · exact Nat.zero_le _
  · exact Nat.min_le_right _ _

theorem portion_of_le {plan : Schedule ε} {call available want : ℕ}
    (hwant : plan call = .ok want) (hle : available ≤ want) :
    portion plan call available = available := by
  unfold portion
  rw [hwant]
  dsimp only
  omega

theorem portion_pos {plan : Schedule ε} (hlegal : Legal plan) (call : ℕ) {available : ℕ}
    (h : 0 < available) : 0 < portion plan call available := by
  obtain ⟨want, hwant⟩ := hlegal call
  unfold portion
  rw [hwant]
  dsimp only
  omega

/-- The schedule whose calls are all willing to give `n` bytes. -/
def constant (n : ℕ) : Schedule ε := fun _ => .ok n

theorem constant_legal (n : ℕ) : Legal (constant n : Schedule ε) := fun _ => ⟨n, rfl⟩

theorem portion_constant {n available : ℕ} (call : ℕ) (hpos : 0 < n) (hle : n ≤ available) :
    portion (constant n : Schedule ε) call available = n := by
  unfold portion constant
  dsimp only
  omega

/-- What is made of a single delivery is the same under all schedules exactly when every
beginning of the bytes makes for what the first byte makes for. -/
theorem single_read_iff {β : Type} {run : Schedule ε → β} (f : List α → β) (xs : List α)
    (call : ℕ)
    (hread : ∀ plan, Legal plan → run plan = f (xs.take (portion plan call xs.length))) :
    (∀ plan plan', Legal plan → Legal plan' → run plan = run plan') ↔
      ∀ n, 0 < n → n ≤ xs.length → f (xs.take n) = f (xs.take 1) := by
  constructor
  · intro h n hpos hle
    have hboth := h (constant n) (constant 1) (constant_legal n) (constant_legal 1)
    rwa [hread _ (constant_legal n), hread _ (constant_legal 1),
      portion_constant call hpos hle, portion_constant call (by omega) (by omega)] at hboth
  · intro h plan plan' hlegal hlegal'
    rw [hread plan hlegal, hread plan' hlegal']
    by_cases hempty : xs.length = 0
    · have hnone : ∀ plan'' : Schedule ε, portion plan'' call xs.length = 0 := by
        intro plan''
        have hle := portion_le plan'' call xs.length
        omega
      rw [hnone, hnone]
    · have hpos : 0 < xs.length := by omega
      rw [h _ (portion_pos hlegal call hpos) (portion_le _ _ _),
        h _ (portion_pos hlegal' call hpos) (portion_le _ _ _)]

/-- What is in the buffer when the loop ends, whatever the schedule did. -/
theorem readLoop_ok {fuel cap : ℕ} {buf out : List α} {r r' : Reader α ε}
    (hfuel : cap - buf.length ≤ fuel) (h : readLoop fuel cap buf r = .ok (out, r')) :
    out = buf ++ r.rest.take (cap - buf.length) ∧
      r'.rest = r.rest.drop (cap - buf.length) ∧ r'.plan = r.plan := by
  induction fuel generalizing buf r with
  | zero =>
    simp only [readLoop, Except.ok.injEq, Prod.mk.injEq] at h
    obtain ⟨rfl, rfl⟩ := h
    simp [show cap - buf.length = 0 by omega]
  | succ fuel ih =>
    unfold readLoop at h
    by_cases hcap : buf.length < cap
    · rw [if_pos hcap] at h
      cases hread : r.read (cap - buf.length) with
      | error e => simp [hread] at h
      | ok result =>
        obtain ⟨chunk, r1⟩ := result
        obtain ⟨n, hlen, hrest, hpos, hchunk, hr1⟩ := read_ok hread
        cases chunk with
        | nil =>
          -- an empty delivery means the source is exhausted
          simp only [hread, Except.ok.injEq, Prod.mk.injEq] at h
          obtain ⟨rfl, rfl⟩ := h
          have hnil : r.rest = [] := by
            by_contra hne
            have hn := hpos (by omega) hne
            have hlength := congrArg List.length hchunk
            simp only [List.length_nil, List.length_take] at hlength
            omega
          simp [hr1, hnil, advance]
        | cons b bs =>
          simp only [hread] at h
          have hn : n = (b :: bs).length := by
            rw [hchunk, List.length_take]
            omega
          have hlong : 0 < (b :: bs).length := by simp
          obtain ⟨hout, hrest', hplan⟩ := ih (by
            simp only [List.length_append]
            omega) h
          have hsplit : cap - buf.length = n + (cap - (buf ++ b :: bs).length) := by
            simp only [List.length_append]
            omega
          refine ⟨?_, ?_, ?_⟩
          · rw [hout, hr1, hsplit, List.take_add, ← hchunk, List.append_assoc]
            rfl
          · rw [hrest', hr1, hsplit, ← List.drop_drop]
            rfl
          · rw [hplan, hr1]
            rfl
    · rw [if_neg hcap] at h
      simp only [Except.ok.injEq, Prod.mk.injEq] at h
      obtain ⟨rfl, rfl⟩ := h
      simp [show cap - buf.length = 0 by omega]

theorem readFull_ok {cap : ℕ} {out : List α} {r r' : Reader α ε}
    (h : readFull cap r = .ok (out, r')) :
    out = r.rest.take cap ∧ r'.rest = r.rest.drop cap ∧ r'.plan = r.plan := by
  simpa using readLoop_ok (by simp) h

theorem readLoop_legal (fuel cap : ℕ) (buf : List α) (r : Reader α ε)
    (hlegal : Legal r.plan) : ∃ out r', readLoop fuel cap buf r = .ok (out, r') := by
  induction fuel generalizing buf r with
  | zero => exact ⟨buf, r, rfl⟩
  | succ fuel ih =>
    unfold readLoop
    by_cases hcap : buf.length < cap
    · rw [if_pos hcap]
      obtain ⟨chunk, r1, hread⟩ := read_legal r (cap - buf.length) hlegal
      rw [hread]
      obtain ⟨n, -, -, -, -, hr1⟩ := read_ok hread
      cases chunk with
      | nil => exact ⟨buf, r1, rfl⟩
      | cons b bs => exact ih (buf ++ b :: bs) r1 (by rw [hr1]; exact hlegal)
    · rw [if_neg hcap]
      exact ⟨buf, r, rfl⟩

/-- A legal source fills the buffer with the next bytes of its content. -/
theorem readFull_legal (cap : ℕ) (r : Reader α ε) (hlegal : Legal r.plan) :
    ∃ r', readFull cap r = .ok (r.rest.take cap, r') ∧
      r'.rest = r.rest.drop cap ∧ Legal r'.plan := by
  obtain ⟨out, r', h⟩ := readLoop_legal cap cap [] r hlegal
  obtain ⟨hout, hrest, hplan⟩ := readFull_ok h
  refine ⟨r', ?_, hrest, by rw [hplan]; exact hlegal⟩
  rw [← hout]
  exact h

/-- At most `count` rounds of: fill a buffer of `size`, stop if nothing came,
otherwise let `step` consume the block and its index. -/
def forBlocks (size : ℕ) (onRead : ε → δ) (step : σ → ℕ → List α → Except δ σ) :
    ℕ → ℕ → σ → Reader α ε → Except δ σ
  | 0, _, s, _ => .ok s
  | count + 1, idx, s, r =>
    match readFull size r with
    | .error (e, _) => .error (onRead e)
    | .ok ([], _) => .ok s
    | .ok (b :: bs, r') => do
      let s' ← step s idx (b :: bs)
      forBlocks size onRead step count (idx + 1) s' r'

/-- The fold that a block loop amounts to. -/
def foldBlocks (step : σ → ℕ → List α → Except δ σ) (idx : ℕ) (s : σ)
    (content : List (List α)) : Except δ σ :=
  (content.zipIdx idx).foldlM (fun s p => step s p.2 p.1) s

@[simp] theorem foldBlocks_nil (step : σ → ℕ → List α → Except δ σ) (idx : ℕ) (s : σ) :
    foldBlocks step idx s [] = .ok s := rfl

@[simp] theorem foldBlocks_cons (step : σ → ℕ → List α → Except δ σ) (idx : ℕ) (s : σ)
    (block : List α) (rest : List (List α)) :
    foldBlocks step idx s (block :: rest) =
      step s idx block >>= fun s' => foldBlocks step (idx + 1) s' rest := by
  simp [foldBlocks, List.zipIdx_cons]

/-- A buffer without room stops the loop before its first block. -/
theorem forBlocks_zero (onRead : ε → δ) (step : σ → ℕ → List α → Except δ σ)
    (count idx : ℕ) (s : σ) (r : Reader α ε) :
    forBlocks 0 onRead step count idx s r = .ok s := by
  cases count <;> rfl

theorem blocks_zero (xs : List α) : blocks 0 xs = [] := by
  simp [blocks, blockCount]

/-- The rule for block loops: over a legal source they fold over the blocks. -/
theorem forBlocks_legal (size : ℕ) (onRead : ε → δ)
    (step : σ → ℕ → List α → Except δ σ) (count idx : ℕ) (s : σ) (r : Reader α ε)
    (hlegal : Legal r.plan) :
    forBlocks size onRead step count idx s r =
      foldBlocks step idx s ((blocks size r.rest).take count) := by
  rcases Nat.eq_zero_or_pos size with rfl | hsize
  · simp [forBlocks_zero, blocks_zero]
  induction count generalizing idx s r with
  | zero => rfl
  | succ count ih =>
    obtain ⟨r', hread, hrest, hlegal'⟩ := readFull_legal size r hlegal
    unfold forBlocks
    rw [hread]
    by_cases hnil : r.rest = []
    · simp [hnil]
    · rw [blocks_step size r.rest hsize hnil, List.take_succ_cons, foldBlocks_cons]
      cases htake : r.rest.take size with
      | nil =>
        rcases List.take_eq_nil_iff.mp htake with hzero | hrest'
        · omega
        · exact absurd hrest' hnil
      | cons b bs =>
        simp only [ih _ _ r' hlegal', hrest]

/-- A run that ends without an error did what the fold does, also over a source
that could have failed later. -/
theorem forBlocks_ok {size : ℕ} {onRead : ε → δ} {step : σ → ℕ → List α → Except δ σ}
    {count idx : ℕ} {s s' : σ} {r : Reader α ε}
    (h : forBlocks size onRead step count idx s r = .ok s') :
    foldBlocks step idx s ((blocks size r.rest).take count) = .ok s' := by
  rcases Nat.eq_zero_or_pos size with rfl | hsize
  · simpa [forBlocks_zero, blocks_zero] using h
  induction count generalizing idx s r with
  | zero => simpa [forBlocks] using h
  | succ count ih =>
    unfold forBlocks at h
    cases hread : readFull size r with
    | error e => simp [hread] at h
    | ok result =>
      obtain ⟨out, r'⟩ := result
      obtain ⟨hout, hrest, -⟩ := readFull_ok hread
      rw [hread] at h
      cases out with
      | nil =>
        have hnil : r.rest = [] := by
          rcases List.take_eq_nil_iff.mp hout.symm with hzero | hrest'
          · omega
          · exact hrest'
        simpa [hnil] using h
      | cons b bs =>
        have hnil : r.rest ≠ [] := by
          intro hnil
          simp [hnil] at hout
        rw [blocks_step size r.rest hsize hnil, List.take_succ_cons, foldBlocks_cons, ← hout]
        cases hstep : step s idx (b :: bs) with
        | error e => simp [hstep, bind, Except.bind] at h
        | ok s1 =>
          simp only [hstep, bind, Except.bind] at h ⊢
          rw [← hrest]
          exact ih h

/-- Steps that agree wherever the loop can get, over what is left of the source. -/
theorem forBlocks_congr {size : ℕ} {onRead : ε → δ} {step step' : σ → ℕ → List α → Except δ σ}
    (P : ℕ → σ → List α → Prop)
    (hsame : ∀ idx s block rest, block ≠ [] → P idx s (block ++ rest) →
      step s idx block = step' s idx block)
    (hstep : ∀ idx s s' block rest, block ≠ [] → P idx s (block ++ rest) →
      step s idx block = .ok s' → P (idx + 1) s' rest)
    {count idx : ℕ} {s : σ} {r : Reader α ε} (h : P idx s r.rest) :
    forBlocks size onRead step count idx s r = forBlocks size onRead step' count idx s r := by
  induction count generalizing idx s r with
  | zero => rfl
  | succ count ih =>
    unfold forBlocks
    cases hread : readFull size r with
    | error e => rfl
    | ok result =>
      obtain ⟨out, r'⟩ := result
      obtain ⟨hout, hrest, -⟩ := readFull_ok hread
      cases out with
      | nil => rfl
      | cons b bs =>
        have hsplit : r.rest = (b :: bs) ++ r'.rest := by
          rw [hout, hrest, List.take_append_drop]
        rw [hsplit] at h
        have hne := List.cons_ne_nil b bs
        dsimp only
        rw [← hsame idx s (b :: bs) r'.rest hne h]
        cases hdone : step s idx (b :: bs) with
        | error e => rfl
        | ok s' => exact ih (hstep idx s s' (b :: bs) r'.rest hne h hdone)

/-- Two loops of which each step of the first is one of the second, seen through `φ`, unless it
ends in the error `bad`. -/
theorem forBlocks_map {τ : Type} {size : ℕ} {onRead : ε → δ} {step : σ → ℕ → List α → Except δ σ}
    {step' : τ → ℕ → List α → Except δ τ} {φ : σ → τ} {bad : δ}
    (hstep : ∀ s idx block, step s idx block = .error bad ∨
      (step s idx block).map φ = step' (φ s) idx block)
    (count idx : ℕ) (s : σ) (r : Reader α ε) :
    forBlocks size onRead step count idx s r = .error bad ∨
      (forBlocks size onRead step count idx s r).map φ =
        forBlocks size onRead step' count idx (φ s) r := by
  induction count generalizing idx s r with
  | zero => exact .inr rfl
  | succ count ih =>
    unfold forBlocks
    cases hread : readFull size r with
    | error failure => exact .inr rfl
    | ok result =>
      obtain ⟨out, r'⟩ := result
      cases out with
      | nil => exact .inr rfl
      | cons b bs =>
        dsimp only
        rcases hstep s idx (b :: bs) with hbad | hsame
        · exact .inl (by rw [hbad]; rfl)
        · rw [← hsame]
          cases hdone : step s idx (b :: bs) with
          | error e => exact .inr rfl
          | ok s' => exact ih (idx + 1) s' r'

/-- What fails is a read or a step. -/
theorem forBlocks_error {size : ℕ} {onRead : ε → δ} {step : σ → ℕ → List α → Except δ σ}
    {count idx : ℕ} {s : σ} {r : Reader α ε} {e : δ}
    (h : forBlocks size onRead step count idx s r = .error e) :
    (∃ e', e = onRead e') ∨ ∃ s' idx' block, step s' idx' block = .error e := by
  induction count generalizing idx s r with
  | zero => simp [forBlocks] at h
  | succ count ih =>
    unfold forBlocks at h
    cases hread : readFull size r with
    | error failure =>
      simp only [hread, Except.error.injEq] at h
      exact .inl ⟨failure.1, h.symm⟩
    | ok result =>
      obtain ⟨out, r'⟩ := result
      rw [hread] at h
      cases out with
      | nil => simp at h
      | cons b bs =>
        dsimp only at h
        cases hdone : step s idx (b :: bs) with
        | error e' =>
          simp only [hdone, bind, Except.bind, Except.error.injEq] at h
          exact .inr ⟨s, idx, b :: bs, hdone.trans (congrArg Except.error h)⟩
        | ok s' =>
          simp only [hdone, bind, Except.bind] at h
          exact ih h

/-- A fold whose state depends only on the bytes before the block: what one step
does at a block boundary gives what the loop does on the whole content. -/
theorem foldBlocks_of_prefixes {step : σ → ℕ → List α → Except δ σ} {size : ℕ}
    (state : List α → σ) (hsize : 0 < size)
    (hstep : ∀ done block, size ∣ done.length → block ≠ [] → block.length ≤ size →
      step (state done) (done.length / size) block = .ok (state (done ++ block)))
    (done rest : List α) (hdvd : size ∣ done.length) :
    foldBlocks step (done.length / size) (state done) (blocks size rest) =
      .ok (state (done ++ rest)) := by
  induction hn : rest.length using Nat.strongRecOn generalizing done rest with
  | ind n ih =>
    by_cases hne : rest = []
    · simp [hne]
    · have hpos : 0 < rest.length := List.length_pos_iff.mpr hne
      have hblock : rest.take size ≠ [] := by
        rw [ne_eq, List.take_eq_nil_iff]
        rintro (hzero | hnil)
        · omega
        · exact hne hnil
      rw [blocks_step size rest hsize hne, foldBlocks_cons,
        hstep done _ hdvd hblock (List.length_take_le _ _)]
      simp only [bind, Except.bind]
      rcases Nat.le_total rest.length size with hle | hge
      · simp [List.take_of_length_le hle, List.drop_of_length_le hle]
      · have hlen : (done ++ rest.take size).length = done.length + size := by simp [hge]
        have hnext := ih (rest.drop size).length (by rw [List.length_drop]; omega)
          (done ++ rest.take size) (rest.drop size)
          (by rw [hlen]; exact Nat.dvd_add hdvd dvd_rfl) rfl
        rw [hlen, Nat.add_div_right _ hsize] at hnext
        rw [hnext, List.append_assoc, List.take_append_drop]

/-- A loop that turns every block into one result and keeps the offset of the
next block: the results are those of the blocks at their indices. -/
theorem foldBlocks_collect {β : Type} (parse : ℕ → ℕ → List α → Except δ β) (size : ℕ)
    (hsize : 0 < size) (done rest : List α) (hdvd : size ∣ done.length) (acc : List β) :
    foldBlocks
        (fun (s : List β × ℕ) i block => do
          let result ← parse i s.2 block
          .ok (s.1 ++ [result], s.2 + block.length))
        (done.length / size) (acc, done.length) (blocks size rest) =
      ((blocks size rest).zipIdx (done.length / size)).mapM
          (fun p => parse p.2 (p.2 * size) p.1) >>= fun out =>
        .ok (acc ++ out, done.length + rest.length) := by
  induction hn : rest.length using Nat.strongRecOn generalizing done rest acc with
  | ind n ih =>
    subst hn
    by_cases hne : rest = []
    · simp [hne, pure, Except.pure, bind, Except.bind]
    · have hpos : 0 < rest.length := List.length_pos_iff.mpr hne
      rw [blocks_step size rest hsize hne, foldBlocks_cons, List.zipIdx_cons, List.mapM_cons,
        Nat.div_mul_cancel hdvd]
      cases hparse : parse (done.length / size) done.length (rest.take size) with
      | error e => rfl
      | ok result =>
        simp only [bind, Except.bind]
        rcases Nat.le_total rest.length size with hle | hge
        · simp [List.take_of_length_le hle, List.drop_of_length_le hle, pure, Except.pure]
        · have hlen : (done ++ rest.take size).length = done.length + size := by simp [hge]
          have hnext := ih (rest.drop size).length (by rw [List.length_drop]; omega)
            (done ++ rest.take size) (rest.drop size)
            (by rw [hlen]; exact Nat.dvd_add hdvd dvd_rfl) (acc ++ [result]) rfl
          rw [hlen, Nat.add_div_right _ hsize] at hnext
          simp only [bind, Except.bind] at hnext
          rw [List.length_take, Nat.min_eq_left hge, hnext]
          cases List.mapM (fun p => parse p.2 (p.2 * size) p.1)
              ((blocks size (rest.drop size)).zipIdx (done.length / size + 1)) with
          | error e => rfl
          | ok out =>
            simp only [pure, Except.pure, List.append_assoc, List.singleton_append,
              List.length_drop, Except.ok.injEq, Prod.mk.injEq, true_and]
            omega

end Dvrft.ShortReads

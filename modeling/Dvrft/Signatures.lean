import Dvrft.Identification

/-!
The texts of signatures. Where a text is written by literal bytes and documented
escapes, a grammar reads what was written. It takes other texts without an error as
well: a broken escape is dropped with the characters behind it, and a character that is
no byte is cut to one. The registry knows no escapes at all.
-/

namespace Dvrft.Signatures

open Grammar StreamHash Identification

/-- The escapes of one character. -/
def documented : Char → Option UInt8
  | '0' => some 0
  | 'n' => some 10
  | 'r' => some 13
  | 't' => some 9
  | '\\' => some 92
  | _ => none

/-- The code points that a text declares: one for a literal character or a documented
escape, and an unknown escape as it stands. -/
def declared : List Char → List ℕ
  | [] => []
  | '\\' :: 'x' :: h1 :: h2 :: rest =>
    match hexValue h1, hexValue h2 with
    | some hi, some lo => (16 * hi + lo) :: declared rest
    | _, _ => 92 :: 120 :: declared (h1 :: h2 :: rest)
  | '\\' :: c :: rest =>
    match documented c with
    | some b => b.toNat :: declared rest
    | none => 92 :: c.toNat :: declared rest
  | c :: rest => c.toNat :: declared rest

/-- The signature of a text in a rule of a grammar, and in the registry. -/
def ruleOf (offset : ℕ) (text : String) : DetectionRule := ⟨offset, some text, none⟩

/-- The decoding fails, or it yields what is declared. -/
def Faithful (text : String) (decoded : Except Errors.ParserError (List UInt8)) : Prop :=
  match decoded with
  | .ok bytes => bytes.map UInt8.toNat = declared text.toList ∧ (text ≠ "" → bytes ≠ [])
  | .error _ => True

/-- The bytes of a signature written out: printable characters stand for themselves. -/
def escapeByte (b : UInt8) : List Char :=
  if b = 92 then ['\\', '\\']
  else if b = 0 then ['\\', '0']
  else if b = 10 then ['\\', 'n']
  else if b = 13 then ['\\', 'r']
  else if b = 9 then ['\\', 't']
  else if 32 ≤ b ∧ b < 127 then [Char.ofNat b.toNat]
  else ['\\', 'x', hexDigit (b.toNat / 16), hexDigit (b.toNat % 16)]

def escape (bytes : List UInt8) : List Char := bytes.flatMap escapeByte

/-- How the decoder takes a text apart. -/
inductive Pieces : List Char → Prop
  | nil : Pieces []
  | ending : Pieces ['\\']
  | literal {c : Char} {rest : List Char} : c ≠ '\\' → Pieces rest → Pieces (c :: rest)
  | simple {c : Char} {b : UInt8} {rest : List Char} : documented c = some b → Pieces rest →
      Pieces ('\\' :: c :: rest)
  | unknown {c : Char} {rest : List Char} : documented c = none → c ≠ 'x' → Pieces rest →
      Pieces ('\\' :: c :: rest)
  | hexEnd : Pieces ['\\', 'x']
  | hexCut (h1 : Char) : Pieces ['\\', 'x', h1]
  | hex (h1 h2 : Char) {rest : List Char} : Pieces rest →
      Pieces ('\\' :: 'x' :: h1 :: h2 :: rest)

theorem pieces (text : List Char) : Pieces text := by
  induction hn : text.length using Nat.strong_induction_on generalizing text with
  | _ n ih =>
    subst hn
    have hrest : ∀ t : List Char, t.length < text.length → Pieces t := fun t ht => ih _ ht t rfl
    match text with
    | [] => exact .nil
    | c :: rest =>
      by_cases hc : c = '\\'
      · subst hc
        match rest with
        | [] => exact .ending
        | c :: rest =>
          by_cases hx : c = 'x'
          · subst hx
            match rest with
            | [] => exact .hexEnd
            | [h1] => exact .hexCut h1
            | h1 :: h2 :: rest => exact .hex h1 h2 (hrest rest (by simp; omega))
          · cases hd : documented c with
            | some b => exact .simple hd (hrest rest (by simp))
            | none => exact .unknown hd hx (hrest rest (by simp))
      · exact .literal hc (hrest rest (by simp))

section Equations

variable {c h1 h2 : Char} {b : UInt8} {rest : List Char}

theorem documented_eq_some (h : documented c = some b) :
    (c = '0' ∧ b = 0) ∨ (c = 'n' ∧ b = 10) ∨ (c = 'r' ∧ b = 13) ∨ (c = 't' ∧ b = 9) ∨
      (c = '\\' ∧ b = 92) := by
  unfold documented at h
  split at h <;> simp_all

theorem documented_eq_none (h : documented c = none) :
    c ≠ '0' ∧ c ≠ 'n' ∧ c ≠ 'r' ∧ c ≠ 't' ∧ c ≠ '\\' := by
  unfold documented at h
  split at h <;> simp_all

theorem unescapeChars_literal (hc : c ≠ '\\') :
    unescapeChars (c :: rest) = charByte c :: unescapeChars rest := by
  conv_lhs => unfold unescapeChars
  split <;> simp_all

theorem unescapeChars_simple (h : documented c = some b) :
    unescapeChars ('\\' :: c :: rest) = b :: unescapeChars rest := by
  rcases documented_eq_some h with ⟨rfl, rfl⟩ | ⟨rfl, rfl⟩ | ⟨rfl, rfl⟩ | ⟨rfl, rfl⟩ |
    ⟨rfl, rfl⟩
  all_goals rfl

theorem unescapeChars_unknown (h : documented c = none) (hx : c ≠ 'x') :
    unescapeChars ('\\' :: c :: rest) = 92 :: charByte c :: unescapeChars rest := by
  simp [unescapeChars, hx, documented_eq_none h]

theorem unescapeChars_hex :
    unescapeChars ('\\' :: 'x' :: h1 :: h2 :: rest) =
      (hexByte h1 h2).toList ++ unescapeChars rest := rfl

theorem declared_literal (hc : c ≠ '\\') : declared (c :: rest) = c.toNat :: declared rest := by
  conv_lhs => unfold declared
  split <;> simp_all

theorem declared_escape (hx : c ≠ 'x') :
    declared ('\\' :: c :: rest) =
      match documented c with
      | some b => b.toNat :: declared rest
      | none => 92 :: c.toNat :: declared rest := by
  simp [declared, hx]

theorem ne_x_of_documented (h : documented c = some b) : c ≠ 'x' := by
  rintro rfl
  cases h

theorem declared_simple (h : documented c = some b) :
    declared ('\\' :: c :: rest) = b.toNat :: declared rest := by
  rw [declared_escape (ne_x_of_documented h), h]

theorem declared_unknown (h : documented c = none) (hx : c ≠ 'x') :
    declared ('\\' :: c :: rest) = 92 :: c.toNat :: declared rest := by
  rw [declared_escape hx, h]

theorem declared_hex {hi lo : ℕ} (hhi : hexValue h1 = some hi) (hlo : hexValue h2 = some lo) :
    declared ('\\' :: 'x' :: h1 :: h2 :: rest) = (16 * hi + lo) :: declared rest := by
  simp [declared, hhi, hlo]

theorem declared_broken (h : hexValue h1 = none ∨ hexValue h2 = none) :
    declared ('\\' :: 'x' :: h1 :: h2 :: rest) =
      92 :: 120 :: declared (h1 :: h2 :: rest) := by
  rcases h with h | h
  · simp [declared, h]
  · cases hfirst : hexValue h1 <;> simp [declared, hfirst, h]

theorem hexValue_cases {n : ℕ} (h : hexValue c = some n) :
    n < 16 ∧ c ≠ '\\' ∧ c ≠ '+' := by
  have hback : c ≠ '\\' := by
    rintro rfl
    cases h
  have hplus : c ≠ '+' := by
    rintro rfl
    cases h
  refine ⟨?_, hback, hplus⟩
  unfold hexValue at h
  split_ifs at h with h1 h2 h3
  · have hle : c.toNat ≤ '9'.toNat := h1.2
    have hn := Option.some.inj h
    simp only [Char.reduceToNat] at hle hn
    omega
  · have hle : c.toNat ≤ 'f'.toNat := h2.2
    have hn := Option.some.inj h
    simp only [Char.reduceToNat] at hle hn
    omega
  · have hle : c.toNat ≤ 'F'.toNat := h3.2
    have hn := Option.some.inj h
    simp only [Char.reduceToNat] at hle hn
    omega

theorem hexByte_of_digits {hi lo : ℕ} (hhi : hexValue h1 = some hi) (hlo : hexValue h2 = some lo) :
    ∃ b : UInt8, hexByte h1 h2 = some b ∧ b.toNat = 16 * hi + lo := by
  obtain ⟨hhi16, -, hplus⟩ := hexValue_cases hhi
  obtain ⟨hlo16, -, -⟩ := hexValue_cases hlo
  refine ⟨UInt8.ofNat (16 * hi + lo), ?_, ?_⟩
  · rw [hexByte, if_neg hplus, hhi, hlo]
  · rw [UInt8.toNat_ofNat']
    omega

theorem length_hexByte (h1 h2 : Char) : (hexByte h1 h2).toList.length ≤ 1 := by
  cases hexByte h1 h2 <;> simp

theorem digits_or_broken (h1 h2 : Char) :
    (∃ hi lo, hexValue h1 = some hi ∧ hexValue h2 = some lo) ∨
      (hexValue h1 = none ∨ hexValue h2 = none) := by
  cases hexValue h1 with
  | none => exact .inr (.inl rfl)
  | some hi =>
    cases hexValue h2 with
    | none => exact .inr (.inr rfl)
    | some lo => exact .inl ⟨hi, lo, rfl, rfl⟩

/-- A broken escape is dropped, except for a digit behind a plus sign. -/
theorem hexByte_of_broken (h : hexValue h1 = none ∨ hexValue h2 = none) :
    hexByte h1 h2 = none ∨ (h1 = '+' ∧ ∃ n, hexValue h2 = some n) := by
  unfold hexByte
  by_cases hplus : h1 = '+'
  · cases hlo : hexValue h2 with
    | none => exact .inl (by rw [if_pos hplus]; rfl)
    | some n => exact .inr ⟨hplus, n, rfl⟩
  · rw [if_neg hplus]
    rcases h with h | h
    · rw [h]
      exact .inl rfl
    · rw [h]
      cases hexValue h1 <;> exact .inl rfl

theorem declared_cut (h1 : Char) : declared ['\\', 'x', h1] = 92 :: 120 :: declared [h1] := by
  simp [declared, documented]

/-- Behind `\x` either two digits follow, or the escape is unknown. -/
theorem declared_x (rest : List Char) :
    (∃ h1 h2 rest' hi lo, rest = h1 :: h2 :: rest' ∧ hexValue h1 = some hi ∧
      hexValue h2 = some lo) ∨ declared ('\\' :: 'x' :: rest) = 92 :: 120 :: declared rest := by
  match rest with
  | [] => exact .inr rfl
  | [h1] => exact .inr (declared_cut h1)
  | h1 :: h2 :: rest =>
    rcases digits_or_broken h1 h2 with ⟨hi, lo, hhi, hlo⟩ | hbroken
    · exact .inl ⟨h1, h2, rest, hi, lo, rfl, hhi, hlo⟩
    · exact .inr (declared_broken hbroken)

end Equations

/-- The decoder yields no more than is declared, and not much more when it is out of step
by a backslash. -/
structure Bounded (text : List Char) : Prop where
  inStep : (unescapeChars text).length ≤ (declared text).length
  behind : (unescapeChars text).length ≤ (declared ('\\' :: text)).length + 2
  ahead : (unescapeChars ('\\' :: text)).length ≤ (declared text).length + 3

/-- What the decoder makes of a text behind `\x`, against what the whole declares. -/
theorem length_behind_x {rest : List Char}
    (hall : ∀ t : List Char, t.length ≤ rest.length → Bounded t) :
    (unescapeChars rest).length ≤ (declared ('\\' :: 'x' :: rest)).length + 1 := by
  rcases declared_x rest with ⟨h1, h2, rest', hi, lo, rfl, hhi, hlo⟩ | hbroken
  · have htail := (hall rest' (by simp; omega)).inStep
    rw [declared_hex hhi hlo, unescapeChars_literal (hexValue_cases hhi).2.1,
      unescapeChars_literal (hexValue_cases hlo).2.1]
    simp only [List.length_cons]
    omega
  · have hin := (hall rest le_rfl).inStep
    rw [hbroken]
    simp only [List.length_cons]
    omega

/-- What the decoder makes of a text behind a broken escape, against what the text and the
two characters that it swallowed declare. -/
theorem length_behind_broken {rest : List Char}
    (hall : ∀ t : List Char, t.length ≤ rest.length → Bounded t) (h1 h2 : Char) :
    (unescapeChars rest).length ≤ (declared (h1 :: h2 :: rest)).length + 1 := by
  have hrest := hall rest le_rfl
  have hin := hrest.inStep
  by_cases hfirst : h1 = '\\'
  · subst hfirst
    by_cases hx : h2 = 'x'
    · subst hx
      exact length_behind_x hall
    · rw [declared_escape hx]
      cases documented h2 with
      | some b =>
        simp only [List.length_cons]
        omega
      | none =>
        simp only [List.length_cons]
        omega
  · rw [declared_literal hfirst]
    by_cases hsecond : h2 = '\\'
    · subst hsecond
      have hbehind := hrest.behind
      simp only [List.length_cons]
      omega
    · rw [declared_literal hsecond]
      simp only [List.length_cons]
      omega

section Shorter

variable {text : List Char} (hshort : ∀ t : List Char, t.length < text.length → Bounded t)
include hshort

theorem inStep_of_shorter : (unescapeChars text).length ≤ (declared text).length := by
  cases pieces text with
  | nil => exact le_rfl
  | ending => exact le_rfl
  | @literal c rest hc _ =>
    have hrest := (hshort rest (by simp)).inStep
    rw [unescapeChars_literal hc, declared_literal hc]
    simp only [List.length_cons]
    omega
  | @simple c b rest hd _ =>
    have hrest := (hshort rest (by simp)).inStep
    rw [unescapeChars_simple hd, declared_simple hd]
    simp only [List.length_cons]
    omega
  | @unknown c rest hd hx _ =>
    have hrest := (hshort rest (by simp)).inStep
    rw [unescapeChars_unknown hd hx, declared_unknown hd hx]
    simp only [List.length_cons]
    omega
  | hexEnd => decide
  | hexCut h1 =>
    have hbyte := length_hexByte h1 '0'
    rw [declared_cut]
    exact hbyte.trans (by simp)
  | @hex h1 h2 rest _ =>
    have hbyte := length_hexByte h1 h2
    rw [unescapeChars_hex, List.length_append]
    rcases digits_or_broken h1 h2 with ⟨hi, lo, hhi, hlo⟩ | hbroken
    · have hrest := (hshort rest (by simp; omega)).inStep
      rw [declared_hex hhi hlo]
      simp only [List.length_cons]
      omega
    · have hrest := @length_behind_broken rest
        (fun t ht => hshort t (by simp only [List.length_cons]; omega)) h1 h2
      rw [declared_broken hbroken]
      simp only [List.length_cons] at hrest ⊢
      omega

theorem behind_of_shorter :
    (unescapeChars text).length ≤ (declared ('\\' :: text)).length + 2 := by
  match text with
  | [] => exact Nat.zero_le _
  | c :: rest =>
    have hrest := hshort rest (by simp)
    have hin := hrest.inStep
    by_cases hx : c = 'x'
    · subst hx
      have hbehind := @length_behind_x rest
        fun t ht => hshort t (by simp only [List.length_cons]; omega)
      rw [unescapeChars_literal (by decide)]
      simp only [List.length_cons]
      omega
    · cases hd : documented c with
      | some b =>
        rw [declared_simple hd]
        by_cases hc : c = '\\'
        · subst hc
          have hahead := hrest.ahead
          simp only [List.length_cons]
          omega
        · rw [unescapeChars_literal hc]
          simp only [List.length_cons]
          omega
      | none =>
        rw [declared_unknown hd hx, unescapeChars_literal (documented_eq_none hd).2.2.2.2]
        simp only [List.length_cons]
        omega

theorem ahead_of_shorter :
    (unescapeChars ('\\' :: text)).length ≤ (declared text).length + 3 := by
  match text with
  | [] => decide
  | c :: rest =>
    have hrest := hshort rest (by simp)
    have hin := hrest.inStep
    by_cases hx : c = 'x'
    · subst hx
      rw [declared_literal (by decide)]
      match rest with
      | [] => decide
      | [h1] => exact (length_hexByte h1 '0').trans (by simp)
      | h1 :: h2 :: rest =>
        have hbyte := length_hexByte h1 h2
        have hbehind := @length_behind_broken rest
          (fun t ht => hshort t (by simp only [List.length_cons]; omega)) h1 h2
        rw [unescapeChars_hex, List.length_append]
        simp only [List.length_cons]
        omega
    · cases hd : documented c with
      | some b =>
        rw [unescapeChars_simple hd]
        by_cases hc : c = '\\'
        · subst hc
          have hbehind := hrest.behind
          simp only [List.length_cons]
          omega
        · rw [declared_literal hc]
          simp only [List.length_cons]
          omega
      | none =>
        rw [unescapeChars_unknown hd hx, declared_literal (documented_eq_none hd).2.2.2.2]
        simp only [List.length_cons]
        omega

end Shorter

theorem bounded (text : List Char) : Bounded text := by
  induction hn : text.length using Nat.strong_induction_on generalizing text with
  | _ n ih =>
    subst hn
    have hshort : ∀ t : List Char, t.length < text.length → Bounded t := fun t ht => ih _ ht t rfl
    exact ⟨inStep_of_shorter hshort, behind_of_shorter hshort, ahead_of_shorter hshort⟩

/-- Every character is a byte, and behind every `\x` stand two digits. -/
inductive Clean : List Char → Prop
  | nil : Clean []
  | ending : Clean ['\\']
  | literal {c : Char} {rest : List Char} : c ≠ '\\' → c.toNat < 256 → Clean rest →
      Clean (c :: rest)
  | simple {c : Char} {b : UInt8} {rest : List Char} : documented c = some b → Clean rest →
      Clean ('\\' :: c :: rest)
  | unknown {c : Char} {rest : List Char} : documented c = none → c ≠ 'x' → c.toNat < 256 →
      Clean rest → Clean ('\\' :: c :: rest)
  | hex {h1 h2 : Char} {hi lo : ℕ} {rest : List Char} : hexValue h1 = some hi →
      hexValue h2 = some lo → Clean rest → Clean ('\\' :: 'x' :: h1 :: h2 :: rest)

/-- Every character is ASCII, and every escape is unknown or cut off at the end. -/
inductive Plain : List Char → Prop
  | nil : Plain []
  | ending : Plain ['\\']
  | literal {c : Char} {rest : List Char} : c ≠ '\\' → c.toNat < 128 → Plain rest →
      Plain (c :: rest)
  | unknown {c : Char} {rest : List Char} : documented c = none → c ≠ 'x' → c.toNat < 128 →
      Plain rest → Plain ('\\' :: c :: rest)

theorem toNat_charByte (c : Char) : (charByte c).toNat = c.toNat % 256 := by
  rw [charByte, UInt8.toNat_ofNat']
  omega

theorem Clean.decodes {text : List Char} (h : Clean text) :
    (unescapeChars text).map UInt8.toNat = declared text := by
  induction h with
  | nil => rfl
  | ending => rfl
  | literal hc hsmall _ ih =>
    rw [unescapeChars_literal hc, declared_literal hc, List.map_cons, ih, toNat_charByte,
      Nat.mod_eq_of_lt hsmall]
  | simple hd _ ih =>
    rw [unescapeChars_simple hd, declared_simple hd, List.map_cons, ih]
  | unknown hd hx hsmall _ ih =>
    rw [unescapeChars_unknown hd hx, declared_unknown hd hx, List.map_cons, List.map_cons, ih,
      toNat_charByte, Nat.mod_eq_of_lt hsmall]
    rfl
  | hex hhi hlo _ ih =>
    obtain ⟨b, hbyte, hb⟩ := hexByte_of_digits hhi hlo
    rw [unescapeChars_hex, declared_hex hhi hlo, hbyte, List.map_append, ih, ← hb]
    rfl

/-- Where a piece is not clean, the decoding differs at its place or is shorter. -/
theorem clean_of_decodes {text : List Char}
    (h : (unescapeChars text).map UInt8.toNat = declared text) : Clean text := by
  induction pieces text with
  | nil => exact .nil
  | ending => exact .ending
  | literal hc _ ih =>
    rw [unescapeChars_literal hc, declared_literal hc, List.map_cons, toNat_charByte] at h
    obtain ⟨hbyte, hrest⟩ := List.cons.inj h
    exact .literal hc (by omega) (ih hrest)
  | simple hd _ ih =>
    rw [unescapeChars_simple hd, declared_simple hd, List.map_cons] at h
    exact .simple hd (ih (List.cons.inj h).2)
  | unknown hd hx _ ih =>
    rw [unescapeChars_unknown hd hx, declared_unknown hd hx, List.map_cons, List.map_cons,
      toNat_charByte] at h
    obtain ⟨hbyte, hrest⟩ := List.cons.inj (List.cons.inj h).2
    exact .unknown hd hx (by omega) (ih hrest)
  | hexEnd => cases h
  | hexCut h1 =>
    have hlength := congrArg List.length h
    have hbyte := length_hexByte h1 '0'
    have hcut : unescapeChars ['\\', 'x', h1] = (hexByte h1 '0').toList := rfl
    rw [declared_cut, hcut, List.length_map] at hlength
    simp only [List.length_cons] at hlength
    omega
  | @hex h1 h2 rest _ ih =>
    rcases digits_or_broken h1 h2 with ⟨hi, lo, hhi, hlo⟩ | hbroken
    · obtain ⟨byte, hbyte, -⟩ := hexByte_of_digits hhi hlo
      rw [unescapeChars_hex, hbyte, declared_hex hhi hlo] at h
      exact .hex hhi hlo (ih (List.cons.inj h).2)
    · have hlength := congrArg List.length h
      rw [unescapeChars_hex, declared_broken hbroken, List.length_map, List.length_append]
        at hlength
      simp only [List.length_cons] at hlength
      rcases hexByte_of_broken hbroken with hnone | ⟨rfl, n, hdigit⟩
      · have hbehind := @length_behind_broken rest (fun t _ => bounded t) h1 h2
        rw [hnone] at hlength
        simp only [Option.toList_none, List.length_nil] at hlength
        omega
      · have hbyte := length_hexByte '+' h2
        have hin := (bounded rest).inStep
        rw [declared_literal (by decide), declared_literal (hexValue_cases hdigit).2.1]
          at hlength
        simp only [List.length_cons] at hlength
        omega

/-- The registry takes the text as it stands. -/
theorem registryBytes_eq (text : String) :
    text.toUTF8.data.toList = text.toList.flatMap String.utf8EncodeChar := by
  rw [String.toUTF8_eq_toByteArray, ← String.utf8Encode_toList]
  exact List.toList_data_toByteArray

theorem utf8EncodeChar_ascii {c : Char} (h : c.toNat < 128) :
    String.utf8EncodeChar c = [charByte c] := by
  have hle : c.val.toNat ≤ 0x7F := Nat.le_of_lt_succ h
  have hbyte : charByte c = UInt8.ofNat c.val.toNat := by
    rw [charByte, Nat.mod_eq_of_lt (by omega)]
    rfl
  rw [hbyte]
  exact if_pos hle

theorem length_utf8_pos (c : Char) : 1 ≤ (String.utf8EncodeChar c).length := by
  rw [String.length_utf8EncodeChar]
  exact c.utf8Size_pos

/-- Only an ASCII character is encoded in one byte. -/
theorem ascii_of_length {c : Char} (h : (String.utf8EncodeChar c).length ≤ 1) :
    c.toNat < 128 := by
  by_contra hlarge
  have hgt : ¬ c.val.toNat ≤ 0x7F := by
    have heq : c.toNat = c.val.toNat := rfl
    omega
  rw [String.utf8EncodeChar, if_neg hgt] at h
  split_ifs at h <;> simp at h

/-- The registry never has fewer bytes than the decoder yields. -/
theorem length_unescapeChars_le (text : List Char) :
    (unescapeChars text).length ≤ (text.flatMap String.utf8EncodeChar).length := by
  induction pieces text with
  | nil => exact le_rfl
  | ending => decide
  | @literal c rest hc _ ih =>
    have hsize := length_utf8_pos c
    rw [unescapeChars_literal hc, List.flatMap_cons, List.length_append, List.length_cons]
    omega
  | @simple c b rest hd _ ih =>
    have hsize := length_utf8_pos c
    rw [unescapeChars_simple hd, List.flatMap_cons, List.flatMap_cons, List.length_append,
      List.length_append, List.length_cons]
    omega
  | @unknown c rest hd hx _ ih =>
    have hback := length_utf8_pos '\\'
    have hsize := length_utf8_pos c
    rw [unescapeChars_unknown hd hx, List.flatMap_cons, List.flatMap_cons, List.length_append,
      List.length_append, List.length_cons, List.length_cons]
    omega
  | hexEnd => decide
  | hexCut h1 =>
    have hbyte := length_hexByte h1 '0'
    have hback := length_utf8_pos '\\'
    refine hbyte.trans ?_
    rw [List.flatMap_cons, List.length_append]
    omega
  | @hex h1 h2 rest _ ih =>
    have hbyte := length_hexByte h1 h2
    have hsize := length_utf8_pos h1
    rw [unescapeChars_hex]
    simp only [List.flatMap_cons, List.length_append]
    omega

theorem Plain.clean {text : List Char} (h : Plain text) : Clean text := by
  induction h with
  | nil => exact .nil
  | ending => exact .ending
  | literal hc hsmall _ ih => exact .literal hc (by omega) ih
  | unknown hd hx hsmall _ ih => exact .unknown hd hx (by omega) ih

theorem Plain.agrees {text : List Char} (h : Plain text) :
    unescapeChars text = text.flatMap String.utf8EncodeChar := by
  induction h with
  | nil => rfl
  | ending => rfl
  | literal hc hsmall _ ih =>
    rw [unescapeChars_literal hc, List.flatMap_cons, utf8EncodeChar_ascii hsmall, ih]
    rfl
  | unknown hd hx hsmall _ ih =>
    rw [unescapeChars_unknown hd hx, List.flatMap_cons, List.flatMap_cons,
      utf8EncodeChar_ascii hsmall, ih]
    rfl

/-- A clean text that the registry reads alike is plain: an escape of the grammar is shorter
than its text, and a character beyond ASCII is longer than a byte. -/
theorem plain_of_agrees {text : List Char} (h : Clean text)
    (hsame : unescapeChars text = text.flatMap String.utf8EncodeChar) : Plain text := by
  induction h with
  | nil => exact .nil
  | ending => exact .ending
  | @literal c rest hc _ _ ih =>
    have hrest := length_unescapeChars_le rest
    rw [unescapeChars_literal hc, List.flatMap_cons] at hsame
    have hlength := congrArg List.length hsame
    rw [List.length_cons, List.length_append] at hlength
    have hsmall := ascii_of_length (c := c) (by omega)
    rw [utf8EncodeChar_ascii hsmall] at hsame
    exact .literal hc hsmall (ih (List.cons.inj hsame).2)
  | @simple c b rest hd _ ih =>
    have hrest := length_unescapeChars_le rest
    have hback := length_utf8_pos '\\'
    have hsize := length_utf8_pos c
    rw [unescapeChars_simple hd, List.flatMap_cons, List.flatMap_cons] at hsame
    have hlength := congrArg List.length hsame
    rw [List.length_cons, List.length_append, List.length_append] at hlength
    omega
  | @unknown c rest hd hx _ _ ih =>
    have hrest := length_unescapeChars_le rest
    have hback : String.utf8EncodeChar '\\' = [92] := rfl
    rw [unescapeChars_unknown hd hx, List.flatMap_cons, List.flatMap_cons, hback,
      List.singleton_append] at hsame
    have htail := (List.cons.inj hsame).2
    have hlength := congrArg List.length htail
    rw [List.length_cons, List.length_append] at hlength
    have hsmall := ascii_of_length (c := c) (by omega)
    rw [utf8EncodeChar_ascii hsmall] at htail
    exact .unknown hd hx hsmall (ih (List.cons.inj htail).2)
  | @hex h1 h2 hi lo rest hhi hlo _ ih =>
    have hrest := length_unescapeChars_le rest
    have hbyte := length_hexByte h1 h2
    have hback := length_utf8_pos '\\'
    have hx := length_utf8_pos 'x'
    rw [unescapeChars_hex] at hsame
    have hlength := congrArg List.length hsame
    simp only [List.flatMap_cons, List.length_append] at hlength
    omega

theorem unescapeChars_escapeByte (b : UInt8) (rest : List Char) :
    unescapeChars (escapeByte b ++ rest) = b :: unescapeChars rest := by
  have hb := b.toNat_lt
  unfold escapeByte
  split_ifs with h92 h0 h10 h13 h9 hprint
  · rw [h92]
    rfl
  · rw [h0]
    rfl
  · rw [h10]
    rfl
  · rw [h13]
    rfl
  · rw [h9]
    rfl
  · have hchar : (Char.ofNat b.toNat).toNat = b.toNat := by
      rw [Char.toNat_ofNat, if_pos (.inl (by omega))]
    have hback : Char.ofNat b.toNat ≠ '\\' := by
      intro h
      rw [h] at hchar
      exact h92 (UInt8.toNat_inj.mp hchar.symm)
    have hbyte : charByte (Char.ofNat b.toNat) = b := by
      rw [charByte, hchar, Nat.mod_eq_of_lt hb, UInt8.ofNat_toNat]
    rw [List.singleton_append, unescapeChars_literal hback, hbyte]
  · have hhi := hexValue_hexDigit (b.toNat / 16) (by omega)
    have hlo := hexValue_hexDigit (b.toNat % 16) (by omega)
    obtain ⟨byte, hbyte, hvalue⟩ := hexByte_of_digits hhi hlo
    have hsame : byte = b := UInt8.toNat_inj.mp (by omega)
    rw [List.cons_append, List.cons_append, List.cons_append, List.singleton_append,
      unescapeChars_hex, hbyte, hsame]
    rfl

/-- Decoding undoes the escaping. -/
theorem unescapeChars_escape (bytes : List UInt8) : unescapeChars (escape bytes) = bytes := by
  induction bytes with
  | nil => rfl
  | cons b rest ih =>
    unfold escape at ih ⊢
    rw [List.flatMap_cons, unescapeChars_escapeByte, ih]

theorem declared_ne_nil {text : List Char} (h : text ≠ []) : declared text ≠ [] := by
  cases pieces text with
  | nil => exact absurd rfl h
  | ending => simp [declared]
  | literal hc _ => simp [declared_literal hc]
  | simple hd _ => simp [declared_simple hd]
  | unknown hd hx _ => simp [declared_unknown hd hx]
  | hexEnd => simp [declared, documented]
  | hexCut h1 => simp [declared_cut]
  | hex h1 h2 _ =>
    rcases digits_or_broken h1 h2 with ⟨hi, lo, hhi, hlo⟩ | hbroken
    · simp [declared_hex hhi hlo]
    · simp [declared_broken hbroken]

theorem faithful_iff (text : String) :
    Faithful text (.ok (unescapeAscii text)) ↔ Clean text.toList := by
  constructor
  · intro h
    exact clean_of_decodes h.1
  · intro h
    refine ⟨h.decodes, ?_⟩
    intro htext hempty
    have hdeclared := h.decodes
    have hnil : unescapeChars text.toList = [] := hempty
    rw [hnil, List.map_nil] at hdeclared
    exact declared_ne_nil (by simpa using htext) hdeclared.symm

/-- Whatever is written out is read back. A text is decoded faithfully exactly when it is
clean, and by the registry to the same bytes exactly when it is plain. -/
theorem expectedBytes_faithful_iff (offset place : ℕ) (hex : Option String) (weight : Float32) :
    (∀ bytes, (ruleOf offset (String.ofList (escape bytes))).expectedBytes = .ok bytes) ∧
      ∀ text : String,
        (Faithful text (ruleOf offset text).expectedBytes ↔ Clean text.toList) ∧
          (Faithful text (ruleOf offset text).expectedBytes ∧
              (⟨some text, hex, place, weight⟩ : RegistrySignature).expectedBytes =
                (ruleOf offset text).expectedBytes.toOption ↔ Plain text.toList) := by
  have hrule : ∀ text, (ruleOf offset text).expectedBytes = .ok (unescapeAscii text) :=
    fun _ => rfl
  refine ⟨?_, ?_⟩
  · intro bytes
    rw [hrule, unescapeAscii, String.toList_ofList, unescapeChars_escape]
  · intro text
    have hregistry : (⟨some text, hex, place, weight⟩ : RegistrySignature).expectedBytes =
        some (text.toList.flatMap String.utf8EncodeChar) :=
      congrArg some (registryBytes_eq text)
    rw [hrule, hregistry, faithful_iff]
    refine ⟨Iff.rfl, ?_⟩
    constructor
    · rintro ⟨hclean, hsame⟩
      exact plain_of_agrees hclean (Option.some.inj hsame).symm
    · intro hplain
      exact ⟨hplain.clean, congrArg some hplain.agrees.symm⟩

/-- An escape without digits leaves no signature at all. -/
theorem brokenEscape_dropped :
    (ruleOf 0 "\\xZZ").expectedBytes = .ok [] ∧
      ¬ Faithful "\\xZZ" (ruleOf 0 "\\xZZ").expectedBytes := by
  refine ⟨rfl, ?_⟩
  rintro ⟨-, hnonempty⟩
  exact hnonempty (by decide) rfl

end Dvrft.Signatures

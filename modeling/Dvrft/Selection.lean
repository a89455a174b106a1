import Mathlib.Data.List.Find
import Mathlib.Data.List.Perm.Basic
import Mathlib.Data.List.Sort

/-!
The first element of a stable sort. It is the first of the list that no other
precedes strictly, so it depends on the order of the list only through ties.
The relation has to be total and transitive on the list alone. Sorting and taking
elements out may change places.
-/

namespace Dvrft.Selection

variable {α β : Type*}

/-- An element that comes before or ties with every element of the list. -/
def Leads (r : α → α → Prop) (l : List α) (a : α) : Prop := ∀ b ∈ l, r a b

instance (r : α → α → Prop) [DecidableRel r] (l : List α) : DecidablePred (Leads r l) :=
  fun a => inferInstanceAs (Decidable (∀ b ∈ l, r a b))

def TotalOn (r : α → α → Prop) (l : List α) : Prop := ∀ a ∈ l, ∀ b ∈ l, r a b ∨ r b a

def TransOn (r : α → α → Prop) (l : List α) : Prop :=
  ∀ a ∈ l, ∀ b ∈ l, ∀ c ∈ l, r a b → r b c → r a c

section Best

variable {r : α → α → Prop} [DecidableRel r]

/-- The head of the sorted list is the first of the list that leads it. -/
theorem head?_insertionSort {l : List α} (htotal : TotalOn r l) (htrans : TransOn r l) :
    (l.insertionSort r).head? = l.find? fun a => decide (Leads r l a) := by
  induction l with
  | nil => rfl
  | cons a l ih =>
    have htail := ih (fun x hx y hy => htotal x (by simp [hx]) y (by simp [hy]))
      (fun x hx y hy z hz => htrans x (by simp [hx]) y (by simp [hy]) z (by simp [hz]))
    have hself : r a a := (htotal a (by simp) a (by simp)).elim id id
    rw [List.insertionSort_cons]
    cases hsorted : l.insertionSort r with
    | nil =>
      have hl : l = [] := by
        apply List.eq_nil_of_length_eq_zero
        rw [← List.length_insertionSort r l, hsorted]
        rfl
      subst hl
      simp [Leads, hself]
    | cons b rest =>
      rw [hsorted, List.head?_cons, eq_comm] at htail
      have hb : b ∈ l := List.mem_of_find?_eq_some htail
      have hleads : Leads r l b := by
        have hfound := List.find?_some htail
        exact of_decide_eq_true hfound
      rw [List.orderedInsert_cons]
      by_cases hfirst : r a b
      · have hlead : Leads r (a :: l) a := by
          intro c hc
          rcases List.mem_cons.mp hc with rfl | hc
          · exact hself
          · exact htrans a (by simp) b (by simp [hb]) c (by simp [hc]) hfirst (hleads c hc)
        rw [if_pos hfirst, List.find?_cons_of_pos (by simpa using hlead)]
        rfl
      · have hlater : ¬ Leads r (a :: l) a := by
          intro hlead
          exact hfirst (hlead b (by simp [hb]))
        have hba : r b a := (htotal a (by simp) b (by simp [hb])).resolve_left hfirst
        rw [if_neg hfirst, List.find?_cons_of_neg (by simpa using hlater), List.head?_cons]
        -- whoever leads the tail comes before `a` as well, through `b`
        have hsame : ∀ c ∈ l, (decide (Leads r (a :: l) c)) = decide (Leads r l c) := by
          intro c hc
          apply decide_eq_decide.mpr
          constructor
          · intro h x hx
            exact h x (by simp [hx])
          · intro h x hx
            rcases List.mem_cons.mp hx with rfl | hx
            · exact htrans c (by simp [hc]) b (by simp [hb]) x (by simp) (h b hb) hba
            · exact h x hx
        rw [← htail]
        exact (List.find?_congr hsame).symm

/-- The head of the sorted list is good exactly when some good element stands before
every bad one that comes in front of it in the list, and before or level with every
other bad one. -/
theorem good_head?_iff {good : α → Prop} {l : List α} (htotal : TotalOn r l)
    (htrans : TransOn r l) {a : α} (h : (l.insertionSort r).head? = some a) :
    good a ↔ ∃ front b back, l = front ++ b :: back ∧ good b ∧
      (∀ c ∈ front, ¬ good c → ¬ r c b) ∧ ∀ c ∈ back, ¬ good c → r b c := by
  rw [head?_insertionSort htotal htrans] at h
  have ha : Leads r l a := by
    have hfound := List.find?_some h
    exact of_decide_eq_true hfound
  have hmem : a ∈ l := List.mem_of_find?_eq_some h
  have hleads : ∀ b ∈ l, r b a → Leads r l b := fun b hb hba c hc =>
    htrans b hb a hmem c hc hba (ha c hc)
  constructor
  · intro hgood
    obtain ⟨-, front, back, hsplit, hfirst⟩ := List.find?_eq_some_iff_append.mp h
    refine ⟨front, a, back, hsplit, hgood, ?_, fun c hc _ => ha c (by simp [hsplit, hc])⟩
    intro c hc _ hca
    have hlead := hleads c (by simp [hsplit, hc]) hca
    simpa [hlead] using hfirst c hc
  · rintro ⟨front, b, back, rfl, hb, hfront, hback⟩
    by_contra hbad
    rw [List.find?_append] at h
    cases hfound : front.find? fun c => decide (Leads r (front ++ b :: back) c) with
    | some c =>
      rw [hfound, Option.some_or] at h
      obtain rfl := Option.some.inj h
      exact hfront c (List.mem_of_find?_eq_some hfound) hbad (ha b (by simp))
    | none =>
      rw [hfound, Option.none_or] at h
      by_cases hlead : Leads r (front ++ b :: back) b
      · rw [List.find?_cons_of_pos (by simpa using hlead)] at h
        exact hbad (Option.some.inj h ▸ hb)
      · rw [List.find?_cons_of_neg (by simpa using hlead)] at h
        have hba := hback a (List.mem_of_find?_eq_some h) hbad
        exact hlead (hleads b (by simp) hba)

/-- Where what comes later is good only after good ones, as many leading elements are
good as there are good ones. -/
theorem forall_mem_take {good : α → Prop} [DecidablePred good] {l : List α}
    (hsorted : l.Pairwise fun a b => good b → good a) {k : ℕ}
    (hk : k ≤ l.countP fun a => decide (good a)) : ∀ a ∈ l.take k, good a := by
  induction l generalizing k with
  | nil =>
    intro a ha
    simp at ha
  | cons b l ih =>
    obtain ⟨hb, hl⟩ := List.pairwise_cons.mp hsorted
    cases k with
    | zero =>
      intro a ha
      simp at ha
    | succ k =>
      by_cases hgood : good b
      · rw [List.countP_cons_of_pos (by simpa using hgood)] at hk
        intro a ha
        rcases List.mem_cons.mp ha with rfl | ha
        · exact hgood
        · exact ih hl (by omega) a ha
      · have hnone : l.countP (fun a => decide (good a)) = 0 := by
          apply List.countP_eq_zero.mpr
          intro c hc
          simpa using fun hcgood => hgood (hb c hc hcgood)
        rw [List.countP_cons_of_neg (by simpa using hgood), hnone] at hk
        omega

/-- Insertion in front of a sorted list goes on past what a filter takes out. -/
theorem filter_orderedInsert [IsTrans α r] (p : α → Bool) (a : α) {l : List α}
    (hsorted : l.Pairwise r) :
    (l.orderedInsert r a).filter p =
      if p a then (l.filter p).orderedInsert r a else l.filter p := by
  induction l with
  | nil =>
    rw [List.orderedInsert_nil, List.filter_nil, List.orderedInsert_nil, List.filter_cons,
      List.filter_nil]
  | cons b l ih =>
    obtain ⟨hb, hl⟩ := List.pairwise_cons.mp hsorted
    rw [List.orderedInsert_cons]
    by_cases hfirst : r a b
    · have hall : ∀ c ∈ (b :: l).filter p, r a c := by
        intro c hc
        rcases List.mem_cons.mp (List.mem_of_mem_filter hc) with rfl | hc
        · exact hfirst
        · exact trans_of r hfirst (hb c hc)
      rw [if_pos hfirst, List.filter_cons]
      cases hrest : (b :: l).filter p with
      | nil => rw [List.orderedInsert_nil]
      | cons c rest => rw [List.orderedInsert_cons_of_le r rest (hall c (by simp [hrest]))]
    · rw [if_neg hfirst, List.filter_cons, ih hl, List.filter_cons]
      by_cases ha : p a
      · rw [if_pos ha, if_pos ha]
        by_cases hpb : p b
        · rw [if_pos hpb, if_pos hpb, List.orderedInsert_of_not_le r _ hfirst]
        · rw [if_neg hpb, if_neg hpb]
      · rw [if_neg ha, if_neg ha]

/-- The stable sort of the members that pass is the sorted list without the others. -/
theorem filter_insertionSort [Std.Total r] [IsTrans α r] (p : α → Bool) (l : List α) :
    (l.insertionSort r).filter p = (l.filter p).insertionSort r := by
  induction l with
  | nil => rfl
  | cons a l ih =>
    rw [List.insertionSort_cons, filter_orderedInsert p a (List.pairwise_insertionSort r l), ih,
      List.filter_cons]
    by_cases ha : p a
    · rw [if_pos ha, if_pos ha, List.insertionSort_cons]
    · rw [if_neg ha, if_neg ha]

section Ends

variable [Std.Total r] [IsTrans α r] {l : List α} {a : α}

theorem leads_of_head? (h : (l.insertionSort r).head? = some a) : a ∈ l ∧ Leads r l a := by
  obtain ⟨rest, hlist⟩ := List.head?_eq_some_iff.mp h
  have hsorted := List.pairwise_insertionSort r l
  rw [hlist] at hsorted
  refine ⟨(List.mem_insertionSort r).mp (by simp [hlist]), ?_⟩
  intro b hb
  rw [← List.mem_insertionSort r, hlist] at hb
  rcases List.mem_cons.mp hb with rfl | hb
  · exact (total_of r b b).elim id id
  · exact (List.pairwise_cons.mp hsorted).1 b hb

theorem follows_of_getLast? (h : (l.insertionSort r).getLast? = some a) :
    a ∈ l ∧ ∀ b ∈ l, r b a := by
  obtain ⟨front, hlist⟩ := List.getLast?_eq_some_iff.mp h
  have hsorted := List.pairwise_insertionSort r l
  rw [hlist] at hsorted
  refine ⟨(List.mem_insertionSort r).mp (by simp [hlist]), ?_⟩
  intro b hb
  rw [← List.mem_insertionSort r, hlist] at hb
  rcases List.mem_append.mp hb with hb | hb
  · exact (List.pairwise_append.mp hsorted).2.2 b hb a (by simp)
  · obtain rfl := List.mem_singleton.mp hb
    exact (total_of r b b).elim id id

/-- An end of the sorted list that passes a filter is that end of the sorted rest. -/
theorem head?_insertionSort_filter {p : α → Bool} (h : (l.insertionSort r).head? = some a)
    (hp : p a) : ((l.filter p).insertionSort r).head? = some a := by
  obtain ⟨rest, hlist⟩ := List.head?_eq_some_iff.mp h
  rw [← filter_insertionSort, hlist, List.filter_cons_of_pos hp]
  rfl

theorem getLast?_insertionSort_filter {p : α → Bool}
    (h : (l.insertionSort r).getLast? = some a) (hp : p a) :
    ((l.filter p).insertionSort r).getLast? = some a := by
  obtain ⟨front, hlist⟩ := List.getLast?_eq_some_iff.mp h
  rw [← filter_insertionSort, hlist, List.filter_append, List.filter_cons_of_pos hp]
  exact List.getLast?_concat

end Ends

end Best

/-- Whether the first element with a property looks the same in every order of the
list: whenever two elements have it, they look alike. -/
theorem find?_perm_iff (p : α → Bool) (f : Option α → β) (l : List α) :
    (∀ l' : List α, l'.Perm l → f (l'.find? p) = f (l.find? p)) ↔
      ∀ a ∈ l, ∀ b ∈ l, p a = true → p b = true → f (some a) = f (some b) := by
  constructor
  · intro h
    have hfront : ∀ a ∈ l, p a = true → f (some a) = f (l.find? p) := by
      intro a ha hpa
      obtain ⟨front, back, rfl⟩ := List.append_of_mem ha
      have hfirst := h (a :: (front ++ back)) List.perm_middle.symm
      rwa [List.find?_cons_of_pos hpa] at hfirst
    intro a ha b hb hpa hpb
    rw [hfront a ha hpa, hfront b hb hpb]
  · intro h l' hperm
    cases hfound : l.find? p with
    | none =>
      have hnone : l'.find? p = none := by
        rw [List.find?_eq_none] at hfound ⊢
        intro x hx
        exact hfound x (hperm.subset hx)
      rw [hnone]
    | some b =>
      have hb := List.mem_of_find?_eq_some hfound
      cases hfound' : l'.find? p with
      | none =>
        rw [List.find?_eq_none] at hfound'
        exact absurd (List.find?_some hfound) (hfound' b (hperm.symm.subset hb))
      | some a =>
        have ha := hperm.subset (List.mem_of_find?_eq_some hfound')
        exact h a ha b hb (List.find?_some hfound') (List.find?_some hfound)

theorem leads_of_perm {r : α → α → Prop} {l l' : List α} (hperm : l'.Perm l) (a : α) :
    Leads r l' a ↔ Leads r l a := by
  constructor
  · intro h b hb
    exact h b (hperm.symm.subset hb)
  · intro h b hb
    exact h b (hperm.subset hb)

theorem totalOn_of_perm {r : α → α → Prop} {l l' : List α} (hperm : l'.Perm l)
    (h : TotalOn r l) : TotalOn r l' :=
  fun a ha b hb => h a (hperm.subset ha) b (hperm.subset hb)

theorem transOn_of_perm {r : α → α → Prop} {l l' : List α} (hperm : l'.Perm l)
    (h : TransOn r l) : TransOn r l' :=
  fun a ha b hb c hc => h a (hperm.subset ha) b (hperm.subset hb) c (hperm.subset hc)

/-- What a stable sort of yields puts first looks the same in every order of what
yields them, with the same elements behind: whenever two of them lead, they look alike. -/
theorem head?_perm_iff {γ : Type*} (r : β → β → Prop) [DecidableRel r] (y : α → Option β)
    (f : Option β → γ) (l : List α) (rest : List β)
    (htotal : TotalOn r (l.filterMap y ++ rest)) (htrans : TransOn r (l.filterMap y ++ rest)) :
    (∀ l' : List α, l'.Perm l → f ((l'.filterMap y ++ rest).insertionSort r).head? =
        f ((l.filterMap y ++ rest).insertionSort r).head?) ↔
      ∀ a₁ ∈ l, ∀ a₂ ∈ l, ∀ b₁ b₂, y a₁ = some b₁ → y a₂ = some b₂ →
        Leads r (l.filterMap y ++ rest) b₁ → Leads r (l.filterMap y ++ rest) b₂ →
          f (some b₁) = f (some b₂) := by
  let leads : β → Bool := fun b => decide (Leads r (l.filterMap y ++ rest) b)
  let look : Option α → γ := fun a => f ((a.bind y).or (rest.find? leads))
  have hhead : ∀ l' : List α, l'.Perm l → f ((l'.filterMap y ++ rest).insertionSort r).head? =
      look (l'.find? fun a => (y a).any leads) := by
    intro l' hperm
    have hsame : (l'.filterMap y ++ rest).Perm (l.filterMap y ++ rest) :=
      (hperm.filterMap y).append_right rest
    have hleads : (fun b => decide (Leads r (l'.filterMap y ++ rest) b)) = leads := by
      funext b
      exact decide_eq_decide.mpr (leads_of_perm hsame b)
    rw [head?_insertionSort (totalOn_of_perm hsame htotal) (transOn_of_perm hsame htrans),
      hleads, List.find?_append, List.find?_filterMap]
  have hiff := find?_perm_iff (fun a => (y a).any leads) look l
  constructor
  · intro h a₁ ha₁ a₂ ha₂ b₁ b₂ hb₁ hb₂ hlead₁ hlead₂
    have hlook := hiff.mp (by
      intro l' hperm
      rw [← hhead l' hperm, ← hhead l (.refl l)]
      exact h l' hperm) a₁ ha₁ a₂ ha₂
    simp only [hb₁, hb₂, Option.any_some, look, Option.bind_some, Option.some_or] at hlook
    exact hlook (decide_eq_true hlead₁) (decide_eq_true hlead₂)
  · intro h l' hperm
    rw [hhead l' hperm, hhead l (.refl l)]
    apply hiff.mpr _ l' hperm
    intro a₁ ha₁ a₂ ha₂ hany₁ hany₂
    obtain ⟨b₁, hb₁, hlead₁⟩ := (Option.any_eq_true _ _).mp hany₁
    obtain ⟨b₂, hb₂, hlead₂⟩ := (Option.any_eq_true _ _).mp hany₂
    simp only [look, Option.bind_some, hb₁, hb₂, Option.some_or]
    exact h a₁ ha₁ a₂ ha₂ b₁ b₂ hb₁ hb₂ (of_decide_eq_true hlead₁) (of_decide_eq_true hlead₂)

end Dvrft.Selection

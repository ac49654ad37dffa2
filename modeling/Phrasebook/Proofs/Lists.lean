import Mathlib.Data.List.Forall2
import Mathlib.Data.List.Induction

/-!
# Lists

* `FirstOf`, `LastOf` : what the first, or the last, member of a list has to give, of those that
  give anything;
* `firstOf_iff_findSome?` : the first is found by a search;
* `lastOf_concat`, `exists_lastOf_iff` : the last by induction from the end, and when there is one;
* `exists_of_mem_forall₂` : where two lists are related member by member, what a member of the
  second is related to.
-/

namespace Phrasebook

variable {α β : Type}

/-- The first member of the list that gives anything gives `b`. -/
def FirstOf (P : α → β → Prop) (l : List α) (b : β) : Prop :=
  ∃ before a behind, l = before ++ a :: behind ∧ P a b ∧ ∀ x ∈ before, ∀ c, ¬P x c

/-- The last member of the list that gives anything gives `b`. -/
def LastOf (P : α → β → Prop) (l : List α) (b : β) : Prop :=
  ∃ before a behind, l = before ++ a :: behind ∧ P a b ∧ ∀ x ∈ behind, ∀ c, ¬P x c

variable {P : α → β → Prop} {l : List α} {a : α} {b : β}

theorem firstOf_iff_findSome? {f : α → Option β} :
    FirstOf (fun a b => f a = some b) l b ↔ l.findSome? f = some b := by
  rw [List.findSome?_eq_some_iff]
  simp only [FirstOf, Option.eq_none_iff_forall_ne_some, ne_eq]

theorem firstOf_congr {Q : α → β → Prop} (h : ∀ a ∈ l, ∀ b, P a b ↔ Q a b) :
    FirstOf P l b ↔ FirstOf Q l b := by
  have himp : ∀ {P Q : α → β → Prop}, (∀ a ∈ l, ∀ b, P a b ↔ Q a b) → FirstOf P l b →
      FirstOf Q l b := by
    rintro P Q hPQ ⟨before, a, behind, rfl, ha, hnone⟩
    refine ⟨before, a, behind, rfl, (hPQ a (by simp) b).1 ha,
      fun x hx c hc => hnone x hx c ((hPQ x ?_ c).2 hc)⟩
    exact List.mem_append_left _ hx
  exact ⟨himp h, himp fun a ha b => (h a ha b).symm⟩

theorem not_lastOf_nil : ¬LastOf P [] b := by
  rintro ⟨before, a, behind, hl, -⟩
  simp at hl

theorem lastOf_concat : LastOf P (l ++ [a]) b ↔ P a b ∨ (∀ c, ¬P a c) ∧ LastOf P l b := by
  constructor
  · rintro ⟨before, x, behind, hl, hx, hbehind⟩
    rcases List.eq_nil_or_concat behind with rfl | ⟨behind, y, rfl⟩
    · obtain ⟨-, hax⟩ := List.append_inj' hl rfl
      cases hax
      exact .inl hx
    · rw [List.concat_eq_append] at hl hbehind
      have hsplit : l ++ [a] = (before ++ x :: behind) ++ [y] := by simpa using hl
      obtain ⟨rfl, hay⟩ := List.append_inj' hsplit rfl
      cases hay
      refine .inr ⟨hbehind a (by simp), before, x, behind, rfl, hx, fun z hz => hbehind z ?_⟩
      exact List.mem_append_left _ hz
  · rintro (ha | ⟨ha, before, x, behind, rfl, hx, hbehind⟩)
    · exact ⟨l, a, [], rfl, ha, nofun⟩
    · refine ⟨before, x, behind ++ [a], by simp, hx, fun z hz => ?_⟩
      rcases List.mem_append.1 hz with hz | hz
      · exact hbehind z hz
      · rw [List.mem_singleton.1 hz]
        exact ha

/-- Some member is the last to give anything just if some member gives anything. -/
theorem exists_lastOf_iff : (∃ b, LastOf P l b) ↔ ∃ a ∈ l, ∃ b, P a b := by
  induction l using List.reverseRecOn with
  | nil => simp [not_lastOf_nil]
  | append_singleton l a ih =>
    simp only [lastOf_concat, List.mem_append, List.mem_singleton]
    by_cases ha : ∃ c, P a c
    · obtain ⟨c, hc⟩ := ha
      exact ⟨fun _ => ⟨a, .inr rfl, c, hc⟩, fun _ => ⟨c, .inl hc⟩⟩
    · have hnone : ∀ c, ¬P a c := not_exists.1 ha
      constructor
      · rintro ⟨b, hb | ⟨-, hb⟩⟩
        · exact absurd hb (hnone b)
        · obtain ⟨x, hx, hgives⟩ := ih.1 ⟨b, hb⟩
          exact ⟨x, .inl hx, hgives⟩
      · rintro ⟨x, hx | rfl, hgives⟩
        · obtain ⟨b, hb⟩ := ih.2 ⟨x, hx, hgives⟩
          exact ⟨b, .inr ⟨hnone, hb⟩⟩
        · exact absurd hgives ha

theorem exists_of_mem_forall₂ {α β : Type} {R : α → β → Prop} {l : List α} {l' : List β}
    (h : List.Forall₂ R l l') {b : β} (hb : b ∈ l') : ∃ a ∈ l, R a b := by
  induction h with
  | nil => cases hb
  | cons hab _ ih =>
    rcases List.mem_cons.1 hb with rfl | hb
    · exact ⟨_, List.mem_cons_self .., hab⟩
    · obtain ⟨a, ha, hR⟩ := ih hb
      exact ⟨a, List.mem_cons_of_mem _ ha, hR⟩

end Phrasebook

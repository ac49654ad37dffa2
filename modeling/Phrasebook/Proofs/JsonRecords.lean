import Mathlib.Data.List.Nodup
import Phrasebook.Expr.Json
import Phrasebook.Proofs.JsonText

/-!
# Records and variants in JSON

* `Json.clean_ofDouble`, `Json.clean_ofMembers` : what is written is a tree that its text says;
* `Json.depth` : how deep a tree nests, with `Json.depth_ofMembers_le_iff` for what a record leaves
  to its fields;
* `Json.record` : the members of a record, its names beside its values;
* `Json.fields?_record`, `Json.variant?_record` : records, and variants whose tag stands first, are
  read as they are written.
-/

namespace Phrasebook

namespace Json

variable {names : List String} {values items : List Json} {data : List (String × Json)}
    {settled : Bool} {n room : Nat}

/-! ### Trees that are written -/

theorem clean_ofDouble (x : Double) : (ofDouble x).Clean := by
  cases hfinite : x.isFinite with
  | false =>
    rw [ofDouble_eq_null hfinite]
    exact .null
  | true =>
    obtain ⟨spelling, hof, hspelling, -⟩ := exists_ofDouble hfinite
    rw [hof]
    exact .number hspelling

theorem clean_ofMembers (h : ∀ f ∈ data, f.2.Clean) : (ofMembers data).Clean := by
  refine .object (fun e he => ?_) fun e he => ?_
  · obtain ⟨f, -, rfl⟩ := List.mem_map.1 he
    rfl
  · obtain ⟨f, hf, rfl⟩ := List.mem_map.1 he
    exact h f hf

theorem clean_tagged {tag : String} (h : ∀ f ∈ data, f.2.Clean) : (tagged tag data).Clean := by
  refine clean_ofMembers ?_
  rw [List.forall_mem_cons, List.forall_mem_singleton]
  exact ⟨.string tag, clean_ofMembers h⟩

/-! ### Nesting -/

mutual

/-- How deep arrays and objects nest in a tree. -/
@[simp] def depth : Json → Nat
  | .null | .bool _ | .number _ | .string _ => 0
  | .array items => depthOfItems items + 1
  | .object members => depthOfMembers members + 1

@[simp] def depthOfItems : List Json → Nat
  | [] => 0
  | j :: js => max (depth j) (depthOfItems js)

@[simp] def depthOfMembers : List (Option String × Json) → Nat
  | [] => 0
  | (_, j) :: js => max (depth j) (depthOfMembers js)

end

theorem depthOfItems_le_iff : depthOfItems items ≤ n ↔ ∀ j ∈ items, j.depth ≤ n := by
  induction items with
  | nil => simp
  | cons j js ih => rw [depthOfItems, Nat.max_le, ih, List.forall_mem_cons]

theorem depthOfMembers_le_iff {members : List (Option String × Json)} :
    depthOfMembers members ≤ n ↔ ∀ e ∈ members, e.2.depth ≤ n := by
  induction members with
  | nil => simp
  | cons e es ih => rw [depthOfMembers, Nat.max_le, ih, List.forall_mem_cons]

/-- An array takes one level, and leaves the others to its items. -/
theorem depth_array_le_iff :
    (array items).depth ≤ room ↔ ∃ r, room = r + 1 ∧ ∀ j ∈ items, j.depth ≤ r := by
  rw [depth]
  cases room with
  | zero => simp
  | succ r => simp [depthOfItems_le_iff]

/-- A record takes one level, and leaves the others to its fields. -/
theorem depth_ofMembers_le_iff :
    (ofMembers data).depth ≤ room ↔ ∃ r, room = r + 1 ∧ ∀ f ∈ data, f.2.depth ≤ r := by
  have hmembers :
      ∀ r, depthOfMembers (data.map fun f => (some f.1, f.2)) ≤ r ↔ ∀ f ∈ data, f.2.depth ≤ r := by
    intro r
    rw [depthOfMembers_le_iff, List.forall_mem_map]
  rw [ofMembers, depth]
  cases room with
  | zero => simp
  | succ r => simp [hmembers]

/-- A tagged record takes two. -/
theorem depth_tagged_le_iff {tag : String} :
    (tagged tag data).depth ≤ room ↔ ∃ r, room = r + 2 ∧ ∀ f ∈ data, f.2.depth ≤ r := by
  have hfields : ∀ r, (∀ f ∈ [("type", text tag), ("data", ofMembers data)], f.2.depth ≤ r) ↔
      (ofMembers data).depth ≤ r := by
    intro r
    have htag : (text tag).depth = 0 := rfl
    rw [List.forall_mem_cons, List.forall_mem_singleton, htag]
    exact and_iff_right (Nat.zero_le r)
  rw [tagged, depth_ofMembers_le_iff]
  simp only [hfields, depth_ofMembers_le_iff]
  constructor
  · rintro ⟨_, rfl, r, rfl, hdata⟩
    exact ⟨r, rfl, hdata⟩
  · rintro ⟨r, rfl, hdata⟩
    exact ⟨r + 1, rfl, r, rfl, hdata⟩

/-! ### Records -/

/-- The members of a record that is written with its fields in order, of which the last may lack. -/
def record (names : List String) (values : List Json) : List (Option String × Json) :=
  (names.zip values).map fun e => (some e.1, e.2)

theorem map_find?_record (hnodup : names.Nodup) (hlength : values.length ≤ names.length) :
    names.map (fun name => ((record names values).find? fun e => e.1 == some name).map Prod.snd) =
      values.map some ++ List.replicate (names.length - values.length) none := by
  induction names generalizing values with
  | nil =>
    obtain rfl : values = [] := List.length_eq_zero_iff.1 (Nat.le_zero.1 hlength)
    rfl
  | cons name names ih =>
    obtain ⟨hnot, hnodup⟩ := List.nodup_cons.1 hnodup
    cases values with
    | nil =>
      have hnone : ∀ k, ((record (name :: names) []).find? fun e => e.1 == some k).map Prod.snd =
          none := fun _ => rfl
      simp only [hnone, List.map_const']
      rfl
    | cons value values =>
      have hrecord : record (name :: names) (value :: values) =
          (some name, value) :: record names values := rfl
      have hothers : ∀ k ∈ names,
          ((record (name :: names) (value :: values)).find? fun e => e.1 == some k).map Prod.snd =
          ((record names values).find? fun e => e.1 == some k).map Prod.snd := by
        intro k hk
        have hne : (some name == some k) = false :=
          beq_eq_false_iff_ne.2 fun h => hnot (Option.some.inj h ▸ hk)
        rw [hrecord, List.find?_cons, hne]
      have hself :
          ((record (name :: names) (value :: values)).find? (·.1 == some name)).map Prod.snd =
            some value := by
        rw [hrecord, List.find?_cons, beq_self_eq_true]
        rfl
      rw [List.map_cons, hself, List.map_congr_left hothers,
        ih hnodup (Nat.le_of_succ_le_succ hlength), List.map_cons, List.length_cons,
        List.length_cons, Nat.add_sub_add_right]
      rfl

theorem keys_record_sublist (names : List String) (values : List Json) :
    ((record names values).map Prod.fst).Sublist (names.map some) := by
  induction names generalizing values with
  | nil => exact List.Sublist.refl _
  | cons name names ih =>
    cases values with
    | nil => exact List.nil_sublist _
    | cons value values => exact (ih values).cons_cons _

theorem namedFields?_record (hnodup : names.Nodup) (hlength : values.length ≤ names.length) :
    namedFields? names (record names values) =
      some (values.map some ++ List.replicate (names.length - values.length) none) := by
  have hsublist := keys_record_sublist names values
  have hknown : ∀ e ∈ record names values, ∃ k ∈ names, some k = e.1 :=
    fun e he => List.mem_map.1 (hsublist.subset (List.mem_map_of_mem he))
  have hfilter : ∀ p : Option String × Json → Bool, (∀ k ∈ names, ∀ j, p (some k, j) = true) →
      (record names values).filter p = record names values := by
    refine fun p hp => List.filter_eq_self.2 fun e he => ?_
    obtain ⟨k, hk, hname⟩ := hknown e he
    rw [← Prod.mk.eta (p := e), ← hname]
    exact hp k hk e.2
  have hall : (record names values).all (·.1.isSome) = true := by
    refine List.all_eq_true.2 fun e he => ?_
    obtain ⟨k, -, hname⟩ := hknown e he
    rw [← hname]
    rfl
  have hkeys : ((record names values).map Prod.fst).Nodup :=
    (hnodup.map (Option.some_injective _)).sublist hsublist
  unfold namedFields?
  dsimp only
  rw [hfilter, hall, decide_eq_true hkeys, map_find?_record hnodup hlength]
  · rfl
  · exact fun k hk _ => List.contains_iff_mem.2 hk

/-- A record is read as it is written, if all its fields are there. -/
theorem fields?_record (names : List String) (values : List Json) (hnodup : names.Nodup)
    (hlength : values.length = names.length) :
    fields? names (.object (record names values)) = some (values.map some) := by
  have h := namedFields?_record hnodup (Nat.le_of_eq hlength)
  rw [hlength, Nat.sub_self, List.replicate_zero, List.append_nil] at h
  exact h

/-- A variant whose tag stands first is read as it is written. -/
theorem variant?_record {tagName contentName tag : String} {index : Nat}
    (hne : tagName ≠ contentName) (hindex : names.findIdx? (· == tag) = some index)
    (content : Option Json) :
    variant? tagName contentName names settled room
      (.object (record [tagName, contentName] (text tag :: content.toList))) =
      some ⟨index, content, settled⟩ := by
  have hnodup : [tagName, contentName].Nodup :=
    List.nodup_cons.2 ⟨by simpa using hne, List.nodup_singleton _⟩
  have hfields : namedFields? [tagName, contentName]
      (record [tagName, contentName] (text tag :: content.toList)) =
      some [some (text tag), content] := by
    cases content with
    | none => exact namedFields?_record hnodup (Nat.le_succ 1)
    | some c => exact namedFields?_record hnodup (Nat.le_refl 2)
  have htag : tagIndex? settled names (text tag) = some index := hindex
  have hfirst : tagFirst tagName contentName
      (record [tagName, contentName] (text tag :: content.toList)) = true :=
    if_pos rfl
  simp only [variant?, hfields, htag, hfirst, Option.bind_eq_bind, Option.bind_some, if_true,
    Option.pure_def]

/-- A tagged record is read back just if the record is, with the room that the tag leaves. -/
theorem tagged?_eq_some_iff {α : Type} {content : Nat → Bool → Nat → Json → Option α} {a : α}
    {P : Prop} {tag : String} {index : Nat} (hindex : names.findIdx? (· == tag) = some index)
    (hnone : ∀ settled j, content 0 settled index j = none)
    (hrecord : ∀ settled room, content (room + 1) settled index (ofMembers data) = some a ↔
      P ∧ ∀ f ∈ data, f.2.depth ≤ room) :
    tagged? names content room settled (tagged tag data) = some a ↔
      P ∧ (tagged tag data).depth ≤ room := by
  have hvariant : ∀ r, variant? "type" "data" names settled r (tagged tag data) =
      some ⟨index, some (ofMembers data), settled⟩ :=
    fun r => variant?_record (by decide) hindex (some (ofMembers data))
  -- The tag comes before the record, so that the record is read no more settled than before.
  have hread : ∀ r, tagged? names content (r + 1) settled (tagged tag data) =
      content r settled index (ofMembers data) := by
    intro r
    rw [tagged?, hvariant]
    rfl
  rw [depth_tagged_le_iff]
  match room with
  | 0 => simp [tagged?]
  | 1 => simp [hread, hnone]
  | r + 2 => simp [hread, hrecord]

end Json

end Phrasebook

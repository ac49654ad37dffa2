/-!
# Dictionaries

Entries in the order in which their keys first came.  Writing to a key that is present keeps its
place and takes the new value.

* `Assoc.insert` : the write on a bare list of entries, with `Assoc.lookup?_insert` saying what it
  changes;
* `Dict` : a list of entries in which no key comes twice.
-/

namespace Phrasebook

namespace Assoc

variable {α : Type}

/-- Writes `v` to the key `k`: in its place if it is present, at the end if it is not. -/
def insert (k : String) (v : α) : List (String × α) → List (String × α)
  | [] => [(k, v)]
  | (k', v') :: es => if k' = k then (k, v) :: es else (k', v') :: insert k v es

def ofList (entries : List (String × α)) : List (String × α) :=
  entries.foldl (fun es e => insert e.1 e.2 es) []

def keys (es : List (String × α)) : List String := es.map Prod.fst

def lookup? (k : String) : List (String × α) → Option α
  | [] => none
  | (k', v) :: es => if k' = k then some v else lookup? k es

theorem keys_insert (k : String) (v : α) (es : List (String × α)) :
    keys (insert k v es) = if k ∈ keys es then keys es else keys es ++ [k] := by
  induction es with
  | nil => simp [insert, keys]
  | cons e es ih =>
    obtain ⟨k', v'⟩ := e
    by_cases h : k' = k
    · simp [insert, keys, h]
    · have hk : ¬ k = k' := fun h' => h h'.symm
      simp only [insert, h, if_false, keys, List.map_cons, List.mem_cons, hk, false_or] at ih ⊢
      rw [ih]
      by_cases hm : k ∈ es.map Prod.fst <;> simp [hm]

theorem nodup_insert (k : String) (v : α) {es : List (String × α)} (h : (keys es).Nodup) :
    (keys (insert k v es)).Nodup := by
  rw [keys_insert]
  split
  · exact h
  · next hk =>
    rw [List.nodup_append]
    refine ⟨h, by simp, fun a ha b hb e => hk ?_⟩
    rw [List.mem_singleton.1 hb] at e
    exact e ▸ ha

theorem lookup?_insert (k : String) (v : α) (es : List (String × α)) (j : String) :
    lookup? j (insert k v es) = if j = k then some v else lookup? j es := by
  induction es with
  | nil => simp [insert, lookup?, eq_comm]
  | cons e es ih =>
    obtain ⟨k', v'⟩ := e
    by_cases h : k' = k
    · subst h
      by_cases hj : j = k'
      · simp [insert, lookup?, hj]
      · have hj' : ¬ k' = j := fun e => hj e.symm
        simp [insert, lookup?, hj, hj']
    · by_cases hj : k' = j
      · subst hj
        simp [insert, lookup?, h]
      · simp [insert, lookup?, h, hj, ih]

/-- Where no key comes twice, an entry is the one that is found at its key. -/
theorem lookup?_eq_some_iff {es : List (String × α)} (h : (keys es).Nodup) {k : String} {v : α} :
    lookup? k es = some v ↔ (k, v) ∈ es := by
  induction es with
  | nil => simp [lookup?]
  | cons e es ih =>
    obtain ⟨k', v'⟩ := e
    have hnodup : k' ∉ keys es ∧ (keys es).Nodup := List.nodup_cons.1 h
    rw [lookup?, List.mem_cons, Prod.mk.injEq]
    by_cases hk : k' = k
    · subst hk
      have hnot : (k', v) ∉ es := fun hmem => hnodup.1 (List.mem_map_of_mem hmem)
      simp [hnot, eq_comm]
    · rw [if_neg hk, ih hnodup.2]
      simp [Ne.symm hk]

/-- A key that is not there is written at the end. -/
theorem insert_of_not_mem {k : String} {es : List (String × α)} (h : k ∉ keys es) (v : α) :
    insert k v es = es ++ [(k, v)] := by
  induction es with
  | nil => rfl
  | cons e es ih =>
    obtain ⟨hne, hrest⟩ := not_or.1 fun hmem => h (List.mem_cons.2 hmem)
    rw [insert, if_neg (Ne.symm hne), ih hrest]
    rfl

theorem nodup_foldl_insert (entries : List (String × α)) :
    ∀ {es : List (String × α)}, (keys es).Nodup →
      (keys (entries.foldl (fun es e => insert e.1 e.2 es) es)).Nodup := by
  induction entries with
  | nil => intro _ h; exact h
  | cons e entries ih => intro _ h; exact ih (nodup_insert e.1 e.2 h)

theorem nodup_ofList (entries : List (String × α)) : (keys (ofList entries)).Nodup :=
  nodup_foldl_insert entries List.nodup_nil

theorem foldl_insert_eq_append (entries : List (String × α)) :
    ∀ {es : List (String × α)}, (keys (es ++ entries)).Nodup →
      entries.foldl (fun es e => insert e.1 e.2 es) es = es ++ entries := by
  induction entries with
  | nil => intro es _; exact (List.append_nil es).symm
  | cons e entries ih =>
    intro es h
    have hsplit : keys (es ++ e :: entries) = keys es ++ e.1 :: keys entries := List.map_append
    have hnot : e.1 ∉ keys es := fun hmem =>
      (List.nodup_append.1 (hsplit ▸ h)).2.2 e.1 hmem e.1 List.mem_cons_self rfl
    rw [List.foldl_cons, insert_of_not_mem hnot, ih, List.append_assoc]
    · rfl
    · rw [List.append_assoc]
      exact h

/-- Entries with keys of their own are written as they are. -/
theorem ofList_eq_self {entries : List (String × α)} (h : (keys entries).Nodup) :
    ofList entries = entries :=
  foldl_insert_eq_append entries h

end Assoc

/-- Entries in the order in which their keys first came, no key twice. -/
structure Dict (α : Type) where
  entries : List (String × α)
  nodup : (Assoc.keys entries).Nodup

namespace Dict

variable {α β : Type}

def empty : Dict α := ⟨[], List.nodup_nil⟩

instance : Inhabited (Dict α) := ⟨empty⟩

def insert (d : Dict α) (k : String) (v : α) : Dict α :=
  ⟨Assoc.insert k v d.entries, Assoc.nodup_insert k v d.nodup⟩

def ofList (entries : List (String × α)) : Dict α :=
  ⟨Assoc.ofList entries, Assoc.nodup_ofList entries⟩

def get? (d : Dict α) (k : String) : Option α := Assoc.lookup? k d.entries

def contains (d : Dict α) (k : String) : Bool := (d.get? k).isSome

def isEmpty (d : Dict α) : Bool := d.entries.isEmpty

def map (f : α → β) (d : Dict α) : Dict β :=
  ⟨d.entries.map fun e => (e.1, f e.2), by
    have := d.nodup
    simpa [Assoc.keys, List.map_map, Function.comp_def] using this⟩

@[simp] theorem get?_empty (k : String) : (empty : Dict α).get? k = none := rfl

@[simp] theorem get?_insert (d : Dict α) (k : String) (v : α) (j : String) :
    (d.insert k v).get? j = if j = k then some v else d.get? j :=
  Assoc.lookup?_insert k v d.entries j

theorem get?_eq_some_iff {d : Dict α} {k : String} {v : α} :
    d.get? k = some v ↔ (k, v) ∈ d.entries :=
  Assoc.lookup?_eq_some_iff d.nodup

end Dict

end Phrasebook

import Mathlib.Data.List.TakeWhile

/-!
# Patterns over text

Patterns are matched by trying their ways of taking a text in order: of two alternatives the first
is tried before the second, and what may be repeated is repeated as often as possible before less is
tried.

* `Pattern.ways` : the ways of taking the beginning of a text, in the order in which they are tried;
* `Pattern.captures?` : the texts of the groups in the first way that takes the whole text;
* `Pattern.Takes` : taking a text, without an order, with `Pattern.mem_ways_iff` between the two;
* `Pattern.captures?_of_tail` : only the order of the first part of a pattern counts, if its second
  part takes whatever is left.
-/

namespace Phrasebook

/-- A pattern over text. -/
inductive Pattern where
  | empty
  | one (p : Char → Bool)
  | seq (first second : Pattern)
  | either (first second : Pattern)
  | maybe (inner : Pattern)
  | many (inner : Pattern)
  | group (inner : Pattern)

namespace Pattern

/-! ### The order of trial -/

/-- A way of taking the beginning of a text: what is taken, the texts of the groups in it, and what
is left. -/
structure Way where
  taken : List Char
  groups : List (List Char)
  rest : List Char

def Way.stay (cs : List Char) : Way := ⟨[], [], cs⟩

/-- One way, and another from where it ends. -/
def Way.andThen (w v : Way) : Way := ⟨w.taken ++ v.taken, w.groups ++ v.groups, v.rest⟩

/-- At most `bound` rounds, as many as possible before fewer.  No round takes nothing, so there are
not more than characters. -/
def rounds (round : List Char → List Way) : Nat → List Char → List Way
  | 0, cs => [.stay cs]
  | bound + 1, cs =>
    ((round cs).filter fun w => !w.taken.isEmpty).flatMap
      (fun w => (rounds round bound w.rest).map w.andThen) ++ [.stay cs]

/-- The ways of taking the beginning of a text, in the order in which they are tried. -/
def ways : Pattern → List Char → List Way
  | .empty, cs => [.stay cs]
  | .one _, [] => []
  | .one p, c :: cs => if p c then [⟨[c], [], cs⟩] else []
  | .seq first second, cs => (ways first cs).flatMap fun w => (ways second w.rest).map w.andThen
  | .either first second, cs => ways first cs ++ ways second cs
  | .maybe inner, cs => ways inner cs ++ [.stay cs]
  | .many inner, cs => rounds (ways inner) cs.length cs
  | .group inner, cs => (ways inner cs).map fun w => { w with groups := w.taken :: w.groups }

/-- The texts of the groups in the first way that takes the whole text. -/
def captures? (pattern : Pattern) (cs : List Char) : Option (List (List Char)) :=
  ((ways pattern cs).find? fun w => w.rest.isEmpty).map (·.groups)

/-! ### Patterns made of others -/

def concat : List Pattern → Pattern
  | [] => .empty
  | p :: ps => .seq p (concat ps)

def char (c : Char) : Pattern := .one (· == c)

def literal (cs : List Char) : Pattern := concat (cs.map char)

def atLeastOne (inner : Pattern) : Pattern := .seq inner (.many inner)

def anything : Pattern := .many (.one fun _ => true)

/-! ### Taking without an order -/

/-- The pattern can take the text, with the given texts of groups in it. -/
inductive Takes : Pattern → List Char → List (List Char) → Prop where
  | empty : Takes .empty [] []
  | one {p : Char → Bool} {c : Char} (hc : p c = true) : Takes (.one p) [c] []
  | seq {first second : Pattern} {t u : List Char} {g h : List (List Char)}
      (hfirst : Takes first t g)
      (hsecond : Takes second u h) : Takes (.seq first second) (t ++ u) (g ++ h)
  | left {first second : Pattern} {t : List Char} {g : List (List Char)}
      (hfirst : Takes first t g) :
      Takes (.either first second) t g
  | right {first second : Pattern} {t : List Char} {g : List (List Char)}
      (hsecond : Takes second t g) :
      Takes (.either first second) t g
  | present {inner : Pattern} {t : List Char} {g : List (List Char)} (hinner : Takes inner t g) :
      Takes (.maybe inner) t g
  | absent {inner : Pattern} : Takes (.maybe inner) [] []
  | stop {inner : Pattern} : Takes (.many inner) [] []
  | more {inner : Pattern} {t u : List Char} {g h : List (List Char)} (hinner : Takes inner t g)
      (hne : t ≠ [])
      (hrest : Takes (.many inner) u h) : Takes (.many inner) (t ++ u) (g ++ h)
  | group {inner : Pattern} {t : List Char} {g : List (List Char)} (hinner : Takes inner t g) :
      Takes (.group inner) t (t :: g)

variable {p inner : Pattern} {cs t rest : List Char} {g : List (List Char)}

theorem mem_rounds {round : List Char → List Way}
    (hround : ∀ {cs t g rest}, ⟨t, g, rest⟩ ∈ round cs ↔ cs = t ++ rest ∧ Takes inner t g)
    {bound : Nat} (hbound : cs.length ≤ bound) :
    ⟨t, g, rest⟩ ∈ rounds round bound cs ↔ cs = t ++ rest ∧ Takes (.many inner) t g := by
  induction bound generalizing cs t g rest with
  | zero =>
    obtain rfl : cs = [] := List.length_eq_zero_iff.1 (Nat.le_zero.1 hbound)
    rw [rounds, List.mem_singleton]
    constructor
    · rintro ⟨⟩
      exact ⟨rfl, .stop⟩
    · rintro ⟨hcs, htakes⟩
      obtain ⟨rfl, rfl⟩ := List.append_eq_nil_iff.1 hcs.symm
      generalize hnil : ([] : List Char) = t at htakes
      cases htakes with
      | stop => rfl
      | more _ hne _ => exact absurd (List.append_eq_nil_iff.1 hnil.symm).1 hne
  | succ bound ih =>
    rw [rounds, List.mem_append, List.mem_flatMap, List.mem_singleton]
    constructor
    · rintro (⟨⟨t, g, tail⟩, hv, hw⟩ | hstay)
      · obtain ⟨⟨u, h, rest⟩, hx, hw⟩ := List.mem_map.1 hw
        obtain ⟨hv, htaken⟩ := List.mem_filter.1 hv
        obtain ⟨rfl, hinner⟩ := hround.1 hv
        have hne : t ≠ [] := by simpa using htaken
        -- a round that takes something leaves less to the rounds behind it, so the bound suffices
        have hlength : tail.length ≤ bound := by
          have := List.length_pos_iff.2 hne
          rw [List.length_append] at hbound
          omega
        obtain ⟨rfl, hmore⟩ := (ih hlength).1 hx
        cases hw
        exact ⟨(List.append_assoc t u rest).symm, .more hinner hne hmore⟩
      · cases hstay
        exact ⟨rfl, .stop⟩
    · rintro ⟨rfl, htakes⟩
      cases htakes with
      | stop => exact .inr rfl
      | @more _ t u g h hinner hne hmore =>
        have hlength : (u ++ rest).length ≤ bound := by
          have := List.length_pos_iff.2 hne
          rw [List.append_assoc, List.length_append] at hbound
          omega
        have hv : ⟨t, g, u ++ rest⟩ ∈ (round (t ++ u ++ rest)).filter fun w => !w.taken.isEmpty :=
          List.mem_filter.2 ⟨hround.2 ⟨List.append_assoc t u rest, hinner⟩, by simpa using hne⟩
        exact .inl ⟨_, hv, List.mem_map.2 ⟨⟨u, h, rest⟩, (ih hlength).2 ⟨rfl, hmore⟩, rfl⟩⟩

/-- The ways of taking a text are tried in some order, and are all tried. -/
theorem mem_ways_iff : ⟨t, g, rest⟩ ∈ ways p cs ↔ cs = t ++ rest ∧ Takes p t g := by
  induction p generalizing cs t g rest with
  | empty =>
    rw [ways, List.mem_singleton]
    constructor
    · rintro ⟨⟩
      exact ⟨rfl, .empty⟩
    · rintro ⟨rfl, ⟨⟩⟩
      rfl
  | one p =>
    constructor
    · intro h
      cases cs with
      | nil => cases h
      | cons c cs =>
        rw [ways] at h
        split at h
        · next hc =>
          cases List.mem_singleton.1 h
          exact ⟨rfl, .one hc⟩
        · cases h
    · rintro ⟨rfl, htakes⟩
      cases htakes with
      | @one _ c hc =>
        show _ ∈ ways (.one p) (c :: rest)
        rw [ways, if_pos hc]
        exact List.mem_singleton.2 rfl
  | seq first second ihfirst ihsecond =>
    rw [ways, List.mem_flatMap]
    constructor
    · rintro ⟨⟨t, g, tail⟩, hv, hw⟩
      obtain ⟨⟨u, h, rest⟩, hx, hw⟩ := List.mem_map.1 hw
      obtain ⟨rfl, hfirst⟩ := ihfirst.1 hv
      obtain ⟨rfl, hsecond⟩ := ihsecond.1 hx
      cases hw
      exact ⟨(List.append_assoc t u rest).symm, .seq hfirst hsecond⟩
    · rintro ⟨rfl, htakes⟩
      cases htakes with
      | @seq _ _ t u g h hfirst hsecond =>
        exact ⟨⟨t, g, u ++ rest⟩, ihfirst.2 ⟨List.append_assoc t u rest, hfirst⟩,
          List.mem_map.2 ⟨⟨u, h, rest⟩, ihsecond.2 ⟨rfl, hsecond⟩, rfl⟩⟩
  | either first second ihfirst ihsecond =>
    rw [ways, List.mem_append, ihfirst, ihsecond, ← and_or_left]
    refine and_congr_right fun _ => ⟨fun h => h.elim .left .right, fun h => ?_⟩
    cases h with
    | left h => exact .inl h
    | right h => exact .inr h
  | maybe inner ih =>
    rw [ways, List.mem_append, List.mem_singleton, ih]
    constructor
    · rintro (⟨rfl, hinner⟩ | hstay)
      · exact ⟨rfl, .present hinner⟩
      · cases hstay
        exact ⟨rfl, .absent⟩
    · rintro ⟨rfl, htakes⟩
      cases htakes with
      | present hinner => exact .inl ⟨rfl, hinner⟩
      | absent => exact .inr rfl
  | many inner ih => exact mem_rounds ih (Nat.le_refl _)
  | group inner ih =>
    rw [ways, List.mem_map]
    constructor
    · rintro ⟨⟨t, g, rest⟩, hv, hw⟩
      obtain ⟨rfl, hinner⟩ := ih.1 hv
      cases hw
      exact ⟨rfl, .group hinner⟩
    · rintro ⟨rfl, htakes⟩
      cases htakes with
      | @group _ _ g hinner => exact ⟨⟨t, g, rest⟩, ih.2 ⟨rfl, hinner⟩, rfl⟩

/-! ### What the kinds of patterns take -/

variable {first second : Pattern} {ps qs : List Pattern} {q : Char → Bool} {c : Char}

theorem takes_one_iff : Takes (.one q) t g ↔ ∃ c, q c = true ∧ t = [c] ∧ g = [] := by
  constructor
  · intro h
    cases h with
    | one hc => exact ⟨_, hc, rfl, rfl⟩
  · rintro ⟨c, hc, rfl, rfl⟩
    exact .one hc

theorem takes_char_iff : Takes (char c) t g ↔ t = [c] ∧ g = [] := by
  simp only [char, takes_one_iff, beq_iff_eq, exists_eq_left]

theorem takes_either_iff :
    Takes (.either first second) t g ↔ Takes first t g ∨ Takes second t g := by
  constructor
  · intro h
    cases h with
    | left h => exact .inl h
    | right h => exact .inr h
  · exact fun h => h.elim .left .right

theorem takes_maybe_iff : Takes (.maybe inner) t g ↔ Takes inner t g ∨ t = [] ∧ g = [] := by
  constructor
  · intro h
    cases h with
    | present h => exact .inl h
    | absent => exact .inr ⟨rfl, rfl⟩
  · rintro (h | ⟨rfl, rfl⟩)
    · exact .present h
    · exact .absent

theorem takes_group_iff : Takes (.group inner) t g ↔ ∃ h, Takes inner t h ∧ g = t :: h := by
  constructor
  · intro h
    cases h with
    | group hinner => exact ⟨_, hinner, rfl⟩
  · rintro ⟨h, hinner, rfl⟩
    exact .group hinner

theorem takes_concat_nil_iff : Takes (concat []) t g ↔ t = [] ∧ g = [] := by
  constructor
  · rintro ⟨⟩
    exact ⟨rfl, rfl⟩
  · rintro ⟨rfl, rfl⟩
    exact .empty

theorem takes_concat_cons_iff : Takes (concat (p :: ps)) t g ↔
    ∃ u h v k, Takes p u h ∧ Takes (concat ps) v k ∧ t = u ++ v ∧ g = h ++ k := by
  constructor
  · intro h
    cases h with
    | seq hfirst hsecond => exact ⟨_, _, _, _, hfirst, hsecond, rfl, rfl⟩
  · rintro ⟨u, h, v, k, hfirst, hsecond, rfl, rfl⟩
    exact .seq hfirst hsecond

theorem takes_literal_iff : Takes (literal cs) t g ↔ t = cs ∧ g = [] := by
  unfold literal
  induction cs generalizing t g with
  | nil => exact takes_concat_nil_iff
  | cons c cs ih =>
    rw [List.map_cons, takes_concat_cons_iff]
    simp only [takes_char_iff, ih]
    constructor
    · rintro ⟨_, _, _, _, ⟨rfl, rfl⟩, ⟨rfl, rfl⟩, rfl, rfl⟩
      exact ⟨rfl, rfl⟩
    · rintro ⟨rfl, rfl⟩
      exact ⟨[c], [], cs, [], ⟨rfl, rfl⟩, ⟨rfl, rfl⟩, rfl, rfl⟩

theorem takes_many_one_iff : Takes (.many (.one q)) t g ↔ (∀ c ∈ t, q c = true) ∧ g = [] := by
  constructor
  · intro h
    generalize hpattern : Pattern.many (.one q) = pattern at h
    induction h with
    | stop => exact ⟨nofun, rfl⟩
    | more hinner _ _ _ ih =>
      cases hpattern
      obtain ⟨c, hc, rfl, rfl⟩ := takes_one_iff.1 hinner
      obtain ⟨hrest, rfl⟩ := ih rfl
      exact ⟨List.forall_mem_cons.2 ⟨hc, hrest⟩, rfl⟩
    | _ => cases hpattern
  · rintro ⟨ht, rfl⟩
    induction t with
    | nil => exact .stop
    | cons c t ih =>
      obtain ⟨hc, ht⟩ := List.forall_mem_cons.1 ht
      exact .more (.one hc) (List.cons_ne_nil c []) (ih ht)

theorem takes_atLeastOne_one_iff :
    Takes (atLeastOne (.one q)) t g ↔ t ≠ [] ∧ (∀ c ∈ t, q c = true) ∧ g = [] := by
  constructor
  · intro h
    cases h with
    | seq hfirst hsecond =>
      obtain ⟨c, hc, rfl, rfl⟩ := takes_one_iff.1 hfirst
      obtain ⟨hrest, rfl⟩ := takes_many_one_iff.1 hsecond
      exact ⟨List.cons_ne_nil c _, List.forall_mem_cons.2 ⟨hc, hrest⟩, rfl⟩
  · rintro ⟨hne, ht, rfl⟩
    cases t with
    | nil => exact absurd rfl hne
    | cons c t =>
      obtain ⟨hc, ht⟩ := List.forall_mem_cons.1 ht
      exact .seq (.one hc) (takes_many_one_iff.2 ⟨ht, rfl⟩)

def groupless : Pattern → Bool
  | .empty | .one _ => true
  | .seq first second | .either first second => groupless first && groupless second
  | .maybe inner | .many inner => groupless inner
  | .group _ => false

theorem Takes.groups_eq_nil (h : Takes p t g) (hp : groupless p = true) : g = [] := by
  induction h with
  | empty | one | absent | stop => rfl
  | seq _ _ ihfirst ihsecond =>
    obtain ⟨hfirst, hsecond⟩ := Bool.and_eq_true_iff.1 hp
    rw [ihfirst hfirst, ihsecond hsecond, List.append_nil]
  | left _ ih => exact ih (Bool.and_eq_true_iff.1 hp).1
  | right _ ih => exact ih (Bool.and_eq_true_iff.1 hp).2
  | present _ ih => exact ih hp
  | more _ _ _ ihinner ihrest => rw [ihinner hp, ihrest hp, List.append_nil]
  | group => cases hp

theorem takes_concat_plain_iff (hp : groupless p = true) :
    Takes (concat (p :: ps)) t g ↔ ∃ u v, Takes p u [] ∧ Takes (concat ps) v g ∧ t = u ++ v := by
  rw [takes_concat_cons_iff]
  constructor
  · rintro ⟨u, h, v, k, hfirst, hsecond, ht, rfl⟩
    obtain rfl := hfirst.groups_eq_nil hp
    exact ⟨u, v, hfirst, hsecond, ht⟩
  · rintro ⟨u, v, hfirst, hsecond, ht⟩
    exact ⟨u, [], v, g, hfirst, hsecond, ht, rfl⟩

theorem takes_concat_group_iff (hp : groupless p = true) :
    Takes (concat (.group p :: ps)) t g ↔
      ∃ u v k, Takes p u [] ∧ Takes (concat ps) v k ∧ t = u ++ v ∧ g = u :: k := by
  rw [takes_concat_cons_iff]
  constructor
  · rintro ⟨u, h, v, k, hfirst, hsecond, ht, rfl⟩
    obtain ⟨h', hinner, rfl⟩ := takes_group_iff.1 hfirst
    obtain rfl := hinner.groups_eq_nil hp
    exact ⟨u, v, k, hinner, hsecond, ht, rfl⟩
  · rintro ⟨u, v, k, hfirst, hsecond, ht, rfl⟩
    exact ⟨u, [u], v, k, .group hfirst, hsecond, ht, rfl⟩

theorem takes_concat_singleton_iff : Takes (concat [p]) t g ↔ Takes p t g := by
  rw [takes_concat_cons_iff]
  simp only [takes_concat_nil_iff]
  constructor
  · rintro ⟨u, h, v, k, hp, ⟨rfl, rfl⟩, rfl, rfl⟩
    rw [List.append_nil, List.append_nil]
    exact hp
  · intro hp
    exact ⟨t, g, [], [], hp, ⟨rfl, rfl⟩, (List.append_nil t).symm, (List.append_nil g).symm⟩

/-! ### The first way -/

theorem andThen_assoc (w v x : Way) : (w.andThen v).andThen x = w.andThen (v.andThen x) := by
  simp only [Way.andThen, List.append_assoc]

theorem ways_seq_assoc (p first second : Pattern) (cs : List Char) :
    ways (.seq (.seq p first) second) cs = ways (.seq p (.seq first second)) cs := by
  simp only [ways, List.flatMap_assoc, List.flatMap_map, List.map_flatMap, List.map_map]
  refine congrArg (List.flatMap · _)
    (funext fun w => congrArg (List.flatMap · _) (funext fun v => ?_))
  exact congrArg (List.map · _) (funext fun x => andThen_assoc w v x)

/-- Patterns one after another are tried like two patterns one after the other, wherever they are
parted. -/
theorem ways_concat_append (ps qs : List Pattern) (cs : List Char) :
    ways (concat (ps ++ qs)) cs = ways (.seq (concat ps) (concat qs)) cs := by
  induction ps generalizing cs with
  | nil =>
    have hstay : (Way.stay cs).andThen = id := rfl
    rw [concat, ways, ways, List.flatMap_singleton, hstay, List.map_id]
    rfl
  | cons p ps ih =>
    rw [concat, ways_seq_assoc, List.cons_append, concat, ways, ways]
    exact congrArg (List.flatMap · _) (funext fun w => congrArg (List.map w.andThen) (ih w.rest))

theorem head?_ways_seq {w v : Way} (hw : (ways first cs).head? = some w)
    (hv : (ways second w.rest).head? = some v) :
    (ways (.seq first second) cs).head? = some (w.andThen v) := by
  obtain ⟨ws, hws⟩ := List.head?_eq_some_iff.1 hw
  obtain ⟨vs, hvs⟩ := List.head?_eq_some_iff.1 hv
  rw [ways, hws, List.flatMap_cons, hvs]
  rfl

theorem captures?_of_head? (h : (ways p cs).head? = some ⟨t, g, []⟩) : captures? p cs = some g := by
  obtain ⟨ws, hws⟩ := List.head?_eq_some_iff.1 h
  rw [captures?, hws]
  rfl

theorem head?_rounds_one {bound : Nat} (hbound : cs.length ≤ bound) :
    (rounds (ways (.one q)) bound cs).head? = some ⟨cs.takeWhile q, [], cs.dropWhile q⟩ := by
  induction bound generalizing cs with
  | zero =>
    obtain rfl : cs = [] := List.length_eq_zero_iff.1 (Nat.le_zero.1 hbound)
    rfl
  | succ bound ih =>
    cases cs with
    | nil => rfl
    | cons c cs =>
      by_cases hc : q c = true
      · obtain ⟨ws, hws⟩ := List.head?_eq_some_iff.1 (ih (Nat.le_of_succ_le_succ hbound))
        rw [rounds, ways, if_pos hc, List.takeWhile_cons_of_pos hc, List.dropWhile_cons_of_pos hc]
        simp [hws, Way.andThen]
      · rw [rounds, ways, if_neg hc, List.takeWhile_cons_of_neg hc, List.dropWhile_cons_of_neg hc]
        rfl

/-- As many characters as possible are tried first. -/
theorem head?_ways_many_one :
    (ways (.many (.one q)) cs).head? = some ⟨cs.takeWhile q, [], cs.dropWhile q⟩ :=
  head?_rounds_one (Nat.le_refl _)

theorem head?_ways_anything : (ways (.group anything) cs).head? = some ⟨cs, [cs], []⟩ := by
  have htake : cs.takeWhile (fun _ => true) = cs := List.takeWhile_eq_self_iff.2 fun _ _ => rfl
  have hdrop : cs.dropWhile (fun _ => true) = [] := List.dropWhile_eq_nil_iff.2 fun _ _ => rfl
  rw [ways, List.head?_map, anything, head?_ways_many_one, htake, hdrop]
  rfl

/-- A group behind a pattern has what the first way leaves. -/
theorem captures?_before_rest (h : (ways p cs).head? = some ⟨t, [], rest⟩) :
    captures? (concat [p, .group anything]) cs = some [rest] := by
  have hend : (ways (concat []) []).head? = some (.stay []) := rfl
  have hgroup : (ways (concat [.group anything]) rest).head? =
      some ((⟨rest, [rest], []⟩ : Way).andThen (.stay [])) :=
    head?_ways_seq head?_ways_anything hend
  exact captures?_of_head? (head?_ways_seq h hgroup)

/-- If the last part of a pattern takes whatever is left, with `f` of it in its one group, then the
other part is taken in its first way. -/
theorem captures?_of_tail {f : List Char → List Char}
    (htail : ∀ cs, captures? (concat qs) cs = some [f cs]) (cs : List Char) :
    (captures? (concat (ps ++ qs)) cs = none ∧ ∀ t rest g, cs = t ++ rest →
      ¬ Takes (concat ps) t g) ∨
    ∃ t rest g, cs = t ++ rest ∧ Takes (concat ps) t g ∧ captures? (concat (ps ++ qs)) cs =
    some (g ++ [f rest]) := by
  cases hways : ways (concat ps) cs with
  | nil =>
    left
    refine ⟨?_, fun t rest g hcs htakes => ?_⟩
    · rw [captures?, ways_concat_append, ways, hways]
      rfl
    · have hmem : ⟨t, g, rest⟩ ∈ ways (concat ps) cs := mem_ways_iff.2 ⟨hcs, htakes⟩
      exact absurd (hways ▸ hmem) List.not_mem_nil
  | cons w ws =>
    -- the second part matches whatever the first leaves, so the first way of all is one with the
    -- first way of the first part
    right
    obtain ⟨t, g, rest⟩ := w
    obtain ⟨hcs, htakes⟩ := mem_ways_iff.1 (hways ▸ List.mem_cons_self)
    refine ⟨t, rest, g, hcs, htakes, ?_⟩
    obtain ⟨v, hv, hgroups⟩ := Option.map_eq_some_iff.1 (htail rest)
    rw [captures?, ways_concat_append, ways, hways, List.flatMap_cons, List.find?_append,
      List.find?_map]
    have hrest : ((fun w : Way => w.rest.isEmpty) ∘ (⟨t, g, rest⟩ : Way).andThen) =
        fun w => w.rest.isEmpty := rfl
    rw [hrest, hv, ← hgroups]
    rfl

end Pattern

end Phrasebook

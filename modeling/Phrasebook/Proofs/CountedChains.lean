import Phrasebook.Proofs.Annotations
import Phrasebook.Proofs.DefaultEntry
import Phrasebook.Proofs.NumberText

/-!
# Which chains count

Whether the message of a chain chooses a plural form is read off its text before anything is
evaluated; the translator goes by the parameters that the `trans` filter is applied with.

* `Application.parameters` : the parameters that a `trans` filter is applied with;
* `Expr.ShowsKeys` : a constant, or a hash with constant keys;
* `Chain.kind_eq_pluralized_iff` : a chain counts as one with plural forms by its parameters, or by
  arguments that `trans` does not look at;
* `Chain.pluralized_agrees_with_parameters` : so it does exactly if its parameters hold a count,
  where its text shows them;
* `Chain.pluralized_disagrees` : chains where the two differ.
-/

namespace Phrasebook

open Outcome

/-! ### Keys of hashes -/

namespace Dict

variable {α : Type}

theorem contains_iff {d : Dict α} {k : String} :
    d.contains k = true ↔ k ∈ Assoc.keys d.entries := by
  have hnone : Assoc.lookup? k d.entries = none ↔ k ∉ Assoc.keys d.entries :=
    Assoc.lookup?_eq_none_iff
  unfold contains get?
  cases hl : Assoc.lookup? k d.entries with
  | none => simpa using hnone.1 hl
  | some v => simpa [hl] using hnone

end Dict

namespace Expr

variable {s : Scope}

/-- The keys of the entries are the texts that the keys of a hash come to. -/
theorem mem_keys_evalEntries {es : Elements} {vs : List (String × Value)} {k : String}
    (h : evalEntries s es = .ok vs) :
    k ∈ Assoc.keys vs ↔ ∃ e ∈ es, ∃ w, e.1.eval s = .ok w ∧ w.text = k := by
  induction es generalizing vs with
  | nil =>
    cases h
    simp [Assoc.keys]
  | cons e es ih =>
    obtain ⟨w, hw, hrest⟩ := bind_eq_ok.1 h
    obtain ⟨v, -, hrest⟩ := bind_eq_ok.1 hrest
    obtain ⟨ws, hws, he⟩ := bind_eq_ok.1 hrest
    cases he
    have htail := ih hws
    simp only [Assoc.keys, List.map_cons, List.mem_cons] at htail ⊢
    rw [htail]
    constructor
    · rintro (rfl | ⟨e', he', hw'⟩)
      · exact ⟨e, .inl rfl, w, hw, rfl⟩
      · exact ⟨e', .inr he', hw'⟩
    · rintro ⟨e', rfl | he', w', hw', rfl⟩
      · rw [hw] at hw'
        cases hw'
        exact .inl rfl
      · exact .inr ⟨e', he', w', hw', rfl⟩

/-- A constant, or a hash whose keys are constants: the expression shows which keys its value
has. -/
def ShowsKeys : Expr → Prop
  | .const _ _ => True
  | .array es _ => ∀ e ∈ es, ∃ v l, e.1 = .const v l
  | _ => False

end Expr

theorem Elements.hasKey_iff {es : Elements} {k : String} :
    es.hasKey k = true ↔ ∃ e ∈ es, ∃ l, e.1 = .string k l := by
  unfold hasKey
  rw [List.any_eq_true]
  constructor
  · rintro ⟨e, he, hk⟩
    split at hk
    · next s l hs => exact ⟨e, he, l, by rw [hs, beq_iff_eq.1 hk]⟩
    · cases hk
  · rintro ⟨e, he, l, hk⟩
    exact ⟨e, he, by simp [hk]⟩

/-! ### Parameters of a message -/

/-- The parameters that a `trans` filter is applied with. -/
def Application.parameters (s : Scope) (t : Application) : Except Error Parameters := do
  let args ← Expr.evalList s t.args
  Filter.parametersAt args 0 t.line

/-- A `trans` filter that has a value takes parameters first, and no hash for its domain or its
locale. -/
theorem Application.exists_parameters {s : Scope} {t : Application} {v : Value}
    (hname : t.name = transFilter) (ht : t.toExpr.eval s = .ok v) :
    ∃ vs params, Expr.evalList s t.args = .ok vs ∧ Filter.parametersAt vs 0 t.line = .ok params ∧
      ∀ es, vs[1]? ≠ some (.map es) ∧ vs[2]? ≠ some (.map es) := by
  obtain ⟨w, -, hrest⟩ := bind_eq_ok.1 (show (t.operand.eval s >>= fun _ => _) = .ok v from ht)
  obtain ⟨vs, hvs, happly⟩ := bind_eq_ok.1 hrest
  rw [hname] at happly
  obtain ⟨params, hparams, hrest⟩ := bind_eq_ok.1 (show Filter.trans _ _ _ _ _ = .ok v from happly)
  obtain ⟨domain, hdomain, hrest⟩ := bind_eq_ok.1 hrest
  obtain ⟨named, hnamed, -⟩ := bind_eq_ok.1 hrest
  refine ⟨vs, params, hvs, hparams, fun es => ⟨fun h => ?_, fun h => ?_⟩⟩
  · simp [Filter.stringAt, h] at hdomain
  · simp [Filter.stringAt, h] at hnamed

namespace Expr

/-- The arguments at an index have the values at the index. -/
theorem eval_getElem? {s : Scope} {es : List Expr} {vs : List Value} (h : evalList s es = .ok vs)
    (i : Nat) :
    (es[i]? = none ∧ vs[i]? = none) ∨ ∃ e v, es[i]? = some e ∧ vs[i]? = some v ∧
      e.eval s = .ok v := by
  induction es generalizing vs i with
  | nil =>
    cases h
    simp
  | cons e es ih =>
    obtain ⟨v, ws, rfl, hv, hws⟩ := of_evalList_cons h
    cases i with
    | zero => exact .inr ⟨e, v, rfl, rfl, hv⟩
    | succ i => simpa using ih hws i

/-- A hash has a hash for its value, with the keys of the hash. -/
theorem eval_array {s : Scope} {es : Elements} {l : Nat} {v : Value}
    (h : (array es l).eval s = .ok v) :
    ∃ vs, evalEntries s es = .ok vs ∧ v = .map (Assoc.ofList vs) := by
  obtain ⟨vs, hvs, he⟩ := bind_eq_ok.1 h
  cases he
  exact ⟨vs, hvs, rfl⟩

end Expr

/-- The parameters taken from a hash have its keys. -/
theorem Parameters.contains_ofList {es : List (String × Value)} {k : String} :
    (Dict.ofList (es.map fun e => (e.1, e.2.text))).contains k = true ↔ k ∈ Assoc.keys es := by
  rw [Dict.contains_iff]
  show k ∈ Assoc.keys (Assoc.ofList (es.map fun e => (e.1, e.2.text))) ↔ _
  rw [Assoc.mem_keys_ofList]
  simp [Assoc.keys, Function.comp_def]

/-! ### The kind of a chain -/

namespace Chain

variable {s : Scope} {f : Application} {c : Chain} {v : Value}

theorem name_of_findTrans? {e : Expr} {t : Application} (h : e.findTrans? = some t) :
    t.name = transFilter := by
  induction e using Expr.children_induction with
  | step e ih =>
    cases e with
    | filter e x as l =>
      by_cases hx : x = transFilter
      · simp only [Expr.findTrans?, if_pos hx] at h
        cases h
        exact hx
      · simp only [Expr.findTrans?, if_neg hx] at h
        exact ih e (by simp [Expr.children]) h
    | _ => simp [Expr.findTrans?] at h

theorem kind_eq_pluralized : c.kind = .pluralized ↔ ∃ a ∈ c.trans.args, countsAmong a = true := by
  unfold kind
  rw [← List.any_eq_true]
  by_cases hany : c.trans.args.any countsAmong = true
  · simp [hany]
  · rw [if_neg hany]
    split <;> simp [hany]

/-- An argument that is a hash with a count has a hash with a count for its value. -/
theorem exists_map_of_countsAmong {a : Expr} (h : countsAmong a = true) {w : Value}
    (hw : a.eval s = .ok w) : ∃ es, w = .map es ∧ countParameter ∈ Assoc.keys es := by
  cases a with
  | array es l =>
    obtain ⟨vs, hvs, rfl⟩ := Expr.eval_array hw
    obtain ⟨e, he, l, hk⟩ := Elements.hasKey_iff.1 h
    have hkey : e.1.eval s = .ok (.string countParameter) := by rw [hk]; rfl
    exact ⟨_, rfl,
      Assoc.mem_keys_ofList.2 ((Expr.mem_keys_evalEntries hvs).2 ⟨e, he, _, hkey, rfl⟩)⟩
  | _ => simp [countsAmong] at h

/-- Where the message of a chain is looked up without error, the chain counts as one with plural
forms by its parameters, or by an argument behind the locale. -/
theorem kind_eq_pluralized_iff (h : ofFilter? f = .ok (some c))
    (ht : c.trans.toExpr.eval s = .ok v) :
    c.kind = .pluralized ↔
      (∃ a, c.trans.args[0]? = some a ∧ countsAmong a = true) ∨
        ∃ a ∈ c.trans.args.drop 3, countsAmong a = true := by
  obtain ⟨-, -, htrans, -⟩ := parts_of_ofFilter? h
  obtain ⟨vs, params, hvs, -, hscalar⟩ :=
    Application.exists_parameters (name_of_findTrans? htrans) ht
  -- domain and locale are no hashes
  have hmiddle : ∀ i, i = 1 ∨ i = 2 → ∀ a, c.trans.args[i]? = some a → countsAmong a = false := by
    intro i hi a ha
    by_contra hcount
    rcases Expr.eval_getElem? hvs i with ⟨hnone, -⟩ | ⟨e, w, he, hw, heval⟩
    · simp [hnone] at ha
    · rw [ha] at he
      cases he
      obtain ⟨es, rfl, -⟩ := exists_map_of_countsAmong (by simpa using hcount) heval
      rcases hi with rfl | rfl
      · exact (hscalar es).1 hw
      · exact (hscalar es).2 hw
  rw [kind_eq_pluralized]
  constructor
  · rintro ⟨a, ha, hcount⟩
    obtain ⟨i, hi⟩ := List.mem_iff_getElem?.1 ha
    by_cases h3 : 3 ≤ i
    · refine .inr ⟨a, List.mem_iff_getElem?.2 ⟨i - 3, ?_⟩, hcount⟩
      rw [List.getElem?_drop, ← hi]
      congr 1
      omega
    · have hi0 : i = 0 := by
        by_contra h0
        rw [hmiddle i (by omega) a hi] at hcount
        cases hcount
      exact .inl ⟨a, hi0 ▸ hi, hcount⟩
  · rintro (⟨a, ha, hcount⟩ | ⟨a, ha, hcount⟩)
    · exact ⟨a, List.mem_of_getElem? ha, hcount⟩
    · exact ⟨a, List.mem_of_mem_drop ha, hcount⟩

/-- No literal but the string is shown as the name of the count. -/
theorem eq_string_of_text {v : Literal} (h : (Value.ofLiteral v).text = countParameter) :
    v = .string countParameter := by
  cases v with
  | string x => exact congrArg Literal.string h
  | number x =>
    -- the label of a number reads as a number, and the name of the count does not
    obtain ⟨y, hy, -⟩ := Value.numberOfText?_label x
    have hnone : Value.numberOfText? countParameter = none := by decide +kernel
    rw [show x.label = countParameter from h, hnone] at hy
    cases hy
  | bool b => cases b <;> exact absurd h (by decide)
  | null => exact absurd h (by decide)

/-- Where the keys of a hash are constants, the count is a key of its value just if it is a key of
the hash. -/
theorem countsAmong_iff_of_showsKeys {es : Elements} {l : Nat} {vs : List (String × Value)}
    (hkeys : (Expr.array es l).ShowsKeys) (hvs : Expr.evalEntries s es = .ok vs) :
    countsAmong (.array es l) = true ↔ countParameter ∈ Assoc.keys vs := by
  rw [Expr.mem_keys_evalEntries hvs]
  refine Iff.trans Elements.hasKey_iff (exists_congr fun e => and_congr_right fun he => ?_)
  obtain ⟨v, l', hv⟩ := hkeys e he
  rw [hv]
  constructor
  · rintro ⟨l'', hstring⟩
    cases hstring
    exact ⟨_, rfl, rfl⟩
  · rintro ⟨w, hw, htext⟩
    cases hw
    exact ⟨l', by rw [eq_string_of_text htext]⟩

/-- Where the first argument shows its keys, the parameters hold a count just if the argument is a
hash with one. -/
theorem contains_count_iff {vs : List Value} {params : Parameters} {args : List Expr} {l : Nat}
    (hvs : Expr.evalList s args = .ok vs) (hparams : Filter.parametersAt vs 0 l = .ok params)
    (hfirst : ∀ a ∈ args[0]?, a.ShowsKeys) :
    params.contains countParameter = true ↔ ∃ a, args[0]? = some a ∧ countsAmong a = true := by
  have hempty : (.empty : Parameters).contains countParameter = false := rfl
  rcases Expr.eval_getElem? hvs 0 with ⟨hnone, hvnone⟩ | ⟨e, w, he, hw, heval⟩
  · simp only [Filter.parametersAt, hvnone] at hparams
    cases hparams
    simp [hnone, hempty]
  · simp only [he, Option.some.injEq, exists_eq_left']
    have hkeys : e.ShowsKeys := hfirst e he
    cases e with
    | array es l =>
      obtain ⟨ws, hws, rfl⟩ := Expr.eval_array heval
      simp only [Filter.parametersAt, hw] at hparams
      cases hparams
      rw [countsAmong_iff_of_showsKeys hkeys hws]
      exact Parameters.contains_ofList.trans Assoc.mem_keys_ofList
    | const v l =>
      -- a constant is no hash, so that it can only be null here
      cases v with
      | null =>
        cases heval
        simp only [Filter.parametersAt, hw] at hparams
        cases hparams
        simp [hempty, countsAmong]
      | _ =>
        cases heval
        simp [Filter.parametersAt, hw, Value.ofLiteral] at hparams
    | _ => exact hkeys.elim

/-- **The kind of a chain agrees with its parameters where its text shows them.**  Let the first
argument of the `trans` filter of a chain be missing, a constant or a hash with constant keys, and
let no argument behind its locale be a hash with the key of a count.  Wherever the message is looked
up without error, the chain counts as one with plural forms just if a count is among its
parameters. -/
theorem pluralized_agrees_with_parameters (s : Scope) (f : Application) (c : Chain) (v : Value)
    (h : ofFilter? f = .ok (some c)) (hfirst : ∀ a ∈ c.trans.args[0]?, a.ShowsKeys)
    (hlate : ∀ a ∈ c.trans.args.drop 3, countsAmong a = false)
    (ht : c.trans.toExpr.eval s = .ok v) :
    ∃ params, c.trans.parameters s = .ok params ∧
      (c.kind = .pluralized ↔ params.contains countParameter = true) := by
  obtain ⟨-, -, htrans, -⟩ := parts_of_ofFilter? h
  obtain ⟨vs, params, hvs, hparams, -⟩ :=
    Application.exists_parameters (name_of_findTrans? htrans) ht
  refine ⟨params, ?_, ?_⟩
  · unfold Application.parameters
    rw [hvs, ok_bind, hparams]
  · have hnone : ¬∃ a ∈ c.trans.args.drop 3, countsAmong a = true := by
      rintro ⟨a, ha, hcount⟩
      simp [hlate a ha] at hcount
    rw [kind_eq_pluralized_iff h ht, contains_count_iff hvs hparams hfirst, or_iff_left hnone]

def ofApples (args : List Expr) : Chain :=
  .onText "apples" args (.string "One apple|%count% apples" 1) [] 1 1 1

/-- A scope with a number of apples, by itself and among the entries of a hash. -/
def applesScope : Scope :=
  (Engine.make { debug := true } (CatalogueStore.empty "en").toTranslator).scope
    (.ofList [("n", .number (.ofNat 3)), ("p", .map [("%count%", .number (.ofNat 3))])])

/-- The count of three apples is a key of the hash that is given. -/
theorem pluralized_agrees_with_parameters_apples :
    let c := ofApples [.array [(.string "%count%" 1, .name "n" 1)] 1, .const .null 1]
    ofFilter? c.desc = .ok (some c) ∧ (∀ a ∈ c.trans.args[0]?, a.ShowsKeys) ∧
      (∀ a ∈ c.trans.args.drop 3, countsAmong a = false) ∧
      c.trans.toExpr.eval applesScope = .ok (.string "apples") ∧ c.kind = .pluralized ∧
      ∃ params, c.trans.parameters applesScope = .ok params ∧
        params.contains countParameter = true := by
  intro c
  have hchain : ofFilter? c.desc = .ok (some c) := rfl
  have hfirst : ∀ a ∈ c.trans.args[0]?, a.ShowsKeys := by
    intro a ha
    cases ha
    simp [Expr.ShowsKeys, Expr.string]
  have hlate : ∀ a ∈ c.trans.args.drop 3, countsAmong a = false :=
    fun a ha => (List.not_mem_nil ha).elim
  have htrans : c.trans.toExpr.eval applesScope = .ok (.string "apples") := by decide +kernel
  have hkind : c.kind = .pluralized := by decide +kernel
  obtain ⟨params, hparams, hagree⟩ :=
    pluralized_agrees_with_parameters applesScope c.desc c _ hchain hfirst hlate htrans
  exact ⟨hchain, hfirst, hlate, htrans, hkind, params, hparams, hagree.1 hkind⟩

/-- Expressions that come to a hash with a count and do not show it: a variable, a filter, a
conditional, and a hash with a key that is put together. -/
def hiddenCounts : List Expr :=
  [.name "p" 1, .filter (.name "p" 1) "meaning" [] 1,
    .cond (.name "n" 1) (.array [(.string "%count%" 1, .name "n" 1)] 1) (.const .null 1) 1,
    .array [(.binary .concat (.string "%count" 1) (.string "%" 1) 1, .name "n" 1)] 1]

/-- Kind and parameters can differ.  A count that the first argument does not show is not seen, and
the default is put in with all its forms; a hash with a count behind the locale is seen, but is no
part of the parameters. -/
theorem pluralized_disagrees :
    (∀ a ∈ hiddenCounts, ∃ c, c = ofApples [a] ∧
      ofFilter? c.desc = .ok (some c) ∧ c.trans.toExpr.eval applesScope = .ok (.string "apples") ∧
      c.replacement.eval applesScope = .ok (.string "One apple|3 apples") ∧ c.kind ≠ .pluralized ∧
      (c.trans.parameters applesScope).map (Dict.contains · countParameter) = .ok true) ∧
    ∃ c, c = ofApples (List.replicate 3 (.const .null 1) ++
      [.array [(.string "%count%" 1, .name "n" 1)] 1]) ∧
      ofFilter? c.desc = .ok (some c) ∧ c.trans.toExpr.eval applesScope = .ok (.string "apples") ∧
      c.kind = .pluralized ∧
      (c.trans.parameters applesScope).map (Dict.contains · countParameter) = .ok false := by
  have hhidden : ∀ a ∈ hiddenCounts,
      (ofApples [a]).trans.toExpr.eval applesScope = .ok (.string "apples") ∧
      (ofApples [a]).replacement.eval applesScope = .ok (.string "One apple|3 apples") ∧
      (ofApples [a]).kind ≠ .pluralized ∧
      ((ofApples [a]).trans.parameters applesScope).map (Dict.contains · countParameter) =
        .ok true := by
    decide +kernel
  refine ⟨fun a ha => ⟨_, rfl, rfl, hhidden a ha⟩, ⟨_, rfl, rfl, ?_, ?_, ?_⟩⟩ <;> decide +kernel

end Chain

end Phrasebook

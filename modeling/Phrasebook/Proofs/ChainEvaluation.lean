import Phrasebook.Engine
import Phrasebook.Proofs.Evaluation

/-!
# Evaluating a chain and its replacement

Chains with `trans` directly below `desc`, most of them with a message that is a string constant and
with a domain and a locale that are string constants, or null, or not given.

* `Filter.trans_eq`, `Filter.choice_eq` : what the two ways to look a message up do once domain and
  locale are known;
* `CatalogueStore.textIn?` : the text that the catalogue of one locale holds;
* `Chain.eval_test` : what the test for a missing text comes to, whatever the message is;
* `Chain.eval_trans`, `Chain.eval_conditional`, `Chain.eval_choice` : the value of the message of a
  chain, and of what stands in for the chain.
-/

namespace Phrasebook

/-! ### Arguments -/

/-- The string that an argument names as it stands; an argument that is absent or null names
none. -/
def Expr.namedString? : Option Expr → Option (Option String)
  | none | some (.const .null _) => some none
  | some (.const (.string s) _) => some (some s)
  | some _ => none

namespace Expr

variable {s : Scope}

theorem evalValues_eq (es : List (Expr × Expr)) :
    evalValues s es = evalList s (Elements.values es) := by
  induction es with
  | nil => rfl
  | cons e es ih => rw [evalValues, ih]; rfl

theorem evalList_cons {e : Expr} {es : List Expr} {v : Value} {vs : List Value}
    (he : e.eval s = .ok v) (hes : evalList s es = .ok vs) :
    evalList s (e :: es) = .ok (v :: vs) := by
  rw [evalList, he, hes]
  rfl

theorem of_evalList_cons {e : Expr} {es : List Expr} {ws : List Value}
    (h : evalList s (e :: es) = .ok ws) :
    ∃ v vs, ws = v :: vs ∧ e.eval s = .ok v ∧ evalList s es = .ok vs := by
  obtain ⟨v, hv, hrest⟩ := Outcome.bind_eq_ok.1 h
  obtain ⟨vs, hvs, he⟩ := Outcome.bind_eq_ok.1 hrest
  cases he
  exact ⟨v, vs, rfl, hv, hvs⟩

/-- Values added one after another stand behind those there were. -/
theorem values_added (es : List Expr) (added : Elements) :
    Elements.values (es.foldl (fun es v => Elements.add es v none) added) = added.values ++ es := by
  induction es generalizing added with
  | nil => rw [List.foldl_nil, List.append_nil]
  | cons e es ih =>
    rw [List.foldl_cons, ih]
    simp [Elements.add, Elements.values]

/-- The arguments of a choice have the values of the expressions it was made of. -/
theorem evalValues_added (es : List Expr) (added : Elements) :
    evalValues s (es.foldl (fun es v => Elements.add es v none) added) =
      evalList s (added.values ++ es) := by
  rw [evalValues_eq, values_added]

theorem stringAt_of_evalList {es : List Expr} {vs : List Value} {i : Nat} {named : Option String}
    (l : Nat) (h : evalList s es = .ok vs) (hi : namedString? es[i]? = some named) :
    Filter.stringAt vs i l = .ok named := by
  induction es generalizing vs i with
  | nil =>
    cases h
    cases hi
    rfl
  | cons e es ih =>
    obtain ⟨v, ws, rfl, hv, hws⟩ := of_evalList_cons h
    cases i with
    | succ i =>
      show Filter.stringAt ws i l = .ok named
      exact ih hws hi
    | zero =>
      rw [List.getElem?_cons_zero] at hi
      unfold namedString? at hi
      split at hi <;> cases hi
      · next h => cases h
      · next h => cases h; cases hv; rfl
      · next h => cases h; cases hv; rfl

end Expr

/-! ### Looking a message up -/

namespace Filter

variable {l : Localizer} {locale named domain : Option String} {line : Nat}

/-- The `trans` filter once domain and locale are known. -/
theorem trans_eq {args : List Value} (operand : Value) (hd : stringAt args 1 line = .ok domain)
    (hn : stringAt args 2 line = .ok named) :
    apply l locale transFilter operand args line =
      parametersAt args 0 line >>= fun params =>
      .ok (.string (l.trans operand.text params domain (named.or locale))) := by
  unfold apply trans
  rw [if_pos (show transFilter = "trans" from rfl), hd, hn]
  rfl

/-- The choice between message and default once domain and locale are known. -/
theorem choice_eq {args : List Value} (message default : Value)
    (hd : stringAt args 1 line = .ok domain) (hn : stringAt args 2 line = .ok named) :
    choice l locale (message :: default :: args) line = parametersAt args 0 line >>= fun params =>
      .ok (.string (l.choiceWithDefault message.text default.text params domain
        (named.or locale))) := by
  have hp : parametersAt (message :: default :: args) 2 line = parametersAt args 0 line := rfl
  have hd' : stringAt (message :: default :: args) 3 line = .ok domain := hd
  have hn' : stringAt (message :: default :: args) 4 line = .ok named := hn
  rw [choice, hp, hd', hn']
  rfl

end Filter

/-! ### Texts without parameters -/

theorem Parameters.fill_empty (text : String) : Parameters.fill .empty text = text := by
  have h : ∀ cs : List Char, fillFrom [] 0 cs = cs := by
    intro cs
    induction cs with
    | nil => rfl
    | cons c cs ih => rw [fillFrom, List.find?_nil, ih]
  have hnone : longestFirst (Dict.empty : Parameters).entries = [] := List.mergeSort_nil
  unfold Parameters.fill
  rw [hnone, h, String.ofList_toList]

theorem Parameters.render_empty (text locale : String) :
    Parameters.render .empty text locale = text :=
  Parameters.fill_empty text

namespace CatalogueStore

variable (store : CatalogueStore)

/-- The text that the catalogue of a locale holds for an id. -/
def textIn? (locale domain id : String) : Option String :=
  (store.catalogues.get? locale).bind fun c => c.get? domain id

theorem defines_eq (id domain : String) (locale : Option String) :
    store.defines id (some domain) locale =
      (store.textIn? (locale.getD store.locale) domain id).isSome := by
  unfold defines catalogue? textIn?
  cases store.catalogues.get? (locale.getD store.locale) <;> rfl

theorem lookup?_of_textIn? {locale domain id text : String}
    (h : store.textIn? locale domain id = some text) :
    store.lookup? domain id locale = some text := by
  unfold lookup?
  rw [List.findSome?_cons]
  unfold textIn? at h
  rw [h]

/-- What the expressions of an engine with the catalogues of a store are evaluated in. -/
def scope (config : Config) (context : Context) : Scope :=
  (Engine.make config store.toTranslator).scope context

variable {store} {config : Config} {context : Context} {id text : String}
    {domain named : Option String}

def localeFor (store : CatalogueStore) (config : Config) (named : Option String) : String :=
  (named.or config.locale).getD store.locale

theorem scope_trans (params : Parameters) :
    (store.scope config context).localizer.trans id params domain
      (named.or (store.scope config context).locale) =
      params.render
      ((store.lookup? (domain.getD config.defaultDomain) id (store.localeFor config named)).getD id)
        (store.localeFor config named) := rfl

/-- A text that the locale itself holds is the one that is rendered. -/
theorem scope_trans_of_textIn? (params : Parameters)
    (h : store.textIn? (store.localeFor config named) (domain.getD config.defaultDomain) id =
      some text) :
    (store.scope config context).localizer.trans id params domain
      (named.or (store.scope config context).locale) =
      params.render text (store.localeFor config named) := by
  rw [scope_trans, store.lookup?_of_textIn? h, Option.getD_some]

/-- The choice between a message and its default is decided by whether the locale itself holds a
text. -/
theorem scope_choice (default : String) (params : Parameters) :
    (store.scope config context).localizer.choiceWithDefault id default params domain
        (named.or (store.scope config context).locale) =
      (store.scope config context).localizer.trans
        (if (store.textIn? (store.localeFor config named)
            (domain.getD config.defaultDomain) id).isSome then id else default)
        params domain (named.or (store.scope config context).locale) := by
  have hdef : (store.scope config context).localizer.translator.defines id
      (some (domain.getD config.defaultDomain))
      (named.or (store.scope config context).locale) =
      (store.textIn? (store.localeFor config named) (domain.getD config.defaultDomain) id).isSome :=
    store.defines_eq id (domain.getD config.defaultDomain) (named.or config.locale)
  by_cases h :
    (store.textIn? (store.localeFor config named) (domain.getD config.defaultDomain) id).isSome
  · rw [if_pos h]
    exact if_pos (hdef.trans h)
  · rw [if_neg h]
    exact if_neg fun hd => h (hdef.symm.trans hd)

end CatalogueStore

/-! ### Chains with `trans` directly below `desc` -/

namespace Chain

/-- The chain of a message with `trans` directly below `desc`. -/
def onMessage (m : Expr) (args : List Expr) (default : Expr) (more : List Expr) (l₂ l₃ : Nat) :
    Chain :=
  let t : Application := ⟨m, transFilter, args, l₂⟩
  ⟨⟨t.toExpr, descFilter, default :: more, l₃⟩, t, t, default⟩

section Test

variable {s : Scope} {m default : Expr} {args more : List Expr} {v : Value} {vs : List Value}
  {domain named : Option String} {l₂ l₃ : Nat}

/-- The arguments of the test have the values of those of the message, but for the parameters, of
which there are none. -/
theorem eval_testArgs (hc : args.any countsAmong = false)
    (hvs : Expr.evalList s args.tail = .ok vs) :
    ∃ ws, Expr.evalList s (onMessage m args default more l₂ l₃).testArgs = .ok ws ∧
      Filter.parametersAt ws 0 l₂ = .ok .empty ∧
      ∀ i, Filter.stringAt ws (i + 1) l₂ = Filter.stringAt vs i l₂ := by
  have hkind : (onMessage m args default more l₂ l₃).kind =
      if args.isEmpty then .plain else .withArguments := by
    show (if args.any countsAmong then _ else _) = _
    rw [hc]
    rfl
  unfold testArgs
  rw [hkind]
  cases args with
  | nil =>
    cases hvs
    exact ⟨[], rfl, rfl, fun _ => rfl⟩
  | cons p rest => exact ⟨.map [] :: vs, Expr.evalList_cons rfl hvs, rfl, fun _ => rfl⟩

/-- The test in place of a chain compares the text found without parameters with the message
itself. -/
theorem eval_test (hc : args.any countsAmong = false) (hm : m.eval s = .ok v)
    (hvs : Expr.evalList s args.tail = .ok vs) (hd : Filter.stringAt vs 0 l₂ = .ok domain)
    (hn : Filter.stringAt vs 1 l₂ = .ok named) :
    (Expr.binary .equal
        (.filter m transFilter (onMessage m args default more l₂ l₃).testArgs l₂) m l₂).eval s =
      .ok (.bool (Value.looseEq
        (.string (s.localizer.trans v.text .empty domain (named.or s.locale))) v)) := by
  obtain ⟨ws, hws, hp, hargs⟩ :
      ∃ ws, Expr.evalList s (onMessage m args default more l₂ l₃).testArgs = .ok ws ∧
      Filter.parametersAt ws 0 l₂ = .ok .empty ∧
      ∀ i, Filter.stringAt ws (i + 1) l₂ = Filter.stringAt vs i l₂ :=
    eval_testArgs hc hvs
  have hleft :
      (Expr.filter m transFilter (onMessage m args default more l₂ l₃).testArgs l₂).eval s =
      .ok (.string (s.localizer.trans v.text .empty domain (named.or s.locale))) := by
    rw [Expr.eval, hm, Outcome.ok_bind, hws, Outcome.ok_bind,
      Filter.trans_eq v ((hargs 0).trans hd) ((hargs 1).trans hn), hp, Outcome.ok_bind]
  rw [Expr.eval, hleft, Outcome.ok_bind, hm]
  rfl

end Test

/-! ### Chains on a string constant -/

/-- The chain of a message that is a string constant, with `trans` directly below `desc`. -/
def onText (id : String) (args : List Expr) (default : Expr) (more : List Expr) (l₁ l₂ l₃ : Nat) :
    Chain :=
  let t : Application := ⟨.string id l₁, transFilter, args, l₂⟩
  ⟨⟨t.toExpr, descFilter, default :: more, l₃⟩, t, t, default⟩

theorem ofFilter?_onText (id : String) (args : List Expr) (default : Expr) (more : List Expr)
    (l₁ l₂ l₃ : Nat) :
    ofFilter? (onText id args default more l₁ l₂ l₃).desc =
      .ok (some (onText id args default more l₁ l₂ l₃)) := rfl

section Evaluation

variable {s : Scope} {id : String} {args more : List Expr} {default : Expr}
    {domain named : Option String}
  {l₁ l₂ l₃ : Nat}

/-- The message of a chain looked up with the arguments of its `trans` filter. -/
theorem eval_trans (hd : Expr.namedString? args[1]? = some domain)
    (hn : Expr.namedString? args[2]? = some named) :
    (Expr.filter (.string id l₁) transFilter args l₂).eval s =
      Expr.evalList s args >>= fun vs => Filter.parametersAt vs 0 l₂ >>= fun params =>
        .ok (.string (s.localizer.trans id params domain (named.or s.locale))) := by
  rw [Expr.eval, Expr.eval, Outcome.ok_bind]
  cases hvs : Expr.evalList s args with
  | error e => rfl
  | ok vs =>
    rw [Outcome.ok_bind, Outcome.ok_bind,
      Filter.trans_eq _ (Expr.stringAt_of_evalList l₂ hvs hd) (Expr.stringAt_of_evalList l₂ hvs hn)]
    rfl

/-- A chain as it stands has the value of its message looked up, once its other arguments have
values. -/
theorem eval_desc {v : Value}
    (h : (onText id args default more l₁ l₂ l₃).desc.toExpr.eval s = .ok v) :
    (Expr.filter (.string id l₁) transFilter args l₂).eval s = .ok v ∧ ∃ d,
      default.eval s = .ok d := by
  obtain ⟨w, hw, hrest⟩ := Outcome.bind_eq_ok.1 h
  obtain ⟨vs, hvs, he⟩ := Outcome.bind_eq_ok.1 hrest
  obtain ⟨d, ds, -, hd, -⟩ := Expr.of_evalList_cons hvs
  cases he
  exact ⟨hw, d, hd⟩

theorem kind_onText : (onText id args default more l₁ l₂ l₃).kind =
    if args.any countsAmong then .pluralized else if args.isEmpty then .plain else .withArguments :=
  rfl

/-- The conditional in place of a chain takes the default if the text found without parameters is
the message itself. -/
theorem eval_conditional (hc : args.any countsAmong = false) {vs : List Value}
    (hvs : Expr.evalList s args.tail = .ok vs) (hd : Expr.namedString? args[1]? = some domain)
    (hn : Expr.namedString? args[2]? = some named) :
    (onText id args default more l₁ l₂ l₃).conditional.eval s =
      if s.localizer.trans id .empty domain (named.or s.locale) = id then
        (onText id args default more l₁ l₂ l₃).filledDefault.eval s
      else (Expr.filter (.string id l₁) transFilter args l₂).eval s := by
  have htest : (Expr.binary .equal (.filter (.string id l₁) transFilter
      (onText id args default more l₁ l₂ l₃).testArgs l₂) (.string id l₁) l₂).eval s =
      .ok (.bool (s.localizer.trans id .empty domain (named.or s.locale) == id)) :=
    eval_test (m := .string id l₁) (v := .string id) hc rfl hvs
      (Expr.stringAt_of_evalList l₂ hvs (by rw [List.getElem?_tail]; exact hd))
      (Expr.stringAt_of_evalList l₂ hvs (by rw [List.getElem?_tail]; exact hn))
  show Expr.eval s
    (.cond (.binary .equal (.filter (.string id l₁) transFilter _ l₂) (.string id l₁) l₂) _
    (.filter (.string id l₁) transFilter args l₂) l₂) = _
  rw [Expr.eval_cond, htest, Outcome.ok_bind, Value.truthy]
  by_cases heq : s.localizer.trans id .empty domain (named.or s.locale) = id
  · rw [if_pos heq, if_pos (beq_iff_eq.2 heq)]
  · rw [if_neg heq, if_neg fun h => heq (beq_iff_eq.1 h)]

/-- The choice in place of a chain decides by what the locale itself defines. -/
theorem eval_choice {d : Value} (hdef : default.eval s = .ok d)
    (hd : Expr.namedString? args[1]? = some domain) (hn : Expr.namedString? args[2]? = some named) :
    (onText id args default more l₁ l₂ l₃).choice.eval s =
      Expr.evalList s args >>= fun vs => Filter.parametersAt vs 0 l₂ >>= fun params =>
        .ok (.string (s.localizer.choiceWithDefault id d.text params domain
          (named.or s.locale))) := by
  have hargs :
      Expr.evalValues s
        ((.string id l₁ :: default :: args).foldl (fun es v => Elements.add es v none) []) =
      Expr.evalList s (.string id l₁ :: default :: args) := by
    rw [Expr.evalValues_added]
    rfl
  show (Expr.evalValues s
    ((.string id l₁ :: default :: args).foldl (fun es v => Elements.add es v none) []) >>=
    fun ws => Filter.choice s.localizer s.locale ws l₂) = _
  rw [hargs]
  cases hvs : Expr.evalList s args with
  | error e =>
    rw [Expr.evalList, Expr.evalList, hdef, hvs]
    rfl
  | ok vs =>
    rw [Expr.evalList_cons rfl (Expr.evalList_cons hdef hvs), Outcome.ok_bind, Outcome.ok_bind,
      Filter.choice_eq _ _ (Expr.stringAt_of_evalList l₂ hvs hd)
      (Expr.stringAt_of_evalList l₂ hvs hn)]
    rfl

end Evaluation

end Chain

end Phrasebook

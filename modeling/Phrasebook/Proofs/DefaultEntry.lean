import Phrasebook.Proofs.ChainEvaluation

/-!
# A default stands in for a missing message

* `CatalogueStore.withText` : a store with the text of one more message;
* `Expr.Untranslated`, `Expr.PlainParameters` : parameters whose values do not depend on what a
  store holds;
* `Chain.replacement_acts_as_entry` : the replacement of a chain without a translation evaluates as
  the chain itself would if the default were written into the catalogue of its locale.
-/

namespace Phrasebook

/-! ### Writing one message -/

namespace Assoc

variable {α : Type}

theorem mem_keys_insert {k j : String} {v : α} {es : List (String × α)} :
    j ∈ keys (insert k v es) ↔ j ∈ keys es ∨ j = k := by
  rw [keys_insert]
  split
  · next hk => exact ⟨Or.inl, fun h => h.elim id fun hj => hj ▸ hk⟩
  · rw [List.mem_append, List.mem_singleton]

theorem mem_keys_foldl_insert {entries : List (String × α)} {j : String} :
    ∀ {es : List (String × α)}, j ∈ keys (entries.foldl (fun es e => insert e.1 e.2 es) es) ↔
      j ∈ keys es ∨ j ∈ keys entries := by
  induction entries with
  | nil => simp [keys]
  | cons e entries ih =>
    intro es
    rw [List.foldl_cons, ih, mem_keys_insert, or_assoc]
    simp [keys]

theorem mem_keys_ofList {entries : List (String × α)} {j : String} :
    j ∈ keys (ofList entries) ↔ j ∈ keys entries :=
  mem_keys_foldl_insert.trans (or_iff_right List.not_mem_nil)

theorem lookup?_eq_none_iff {es : List (String × α)} {j : String} :
    lookup? j es = none ↔ j ∉ keys es := by
  induction es with
  | nil => simp [lookup?, keys]
  | cons e es ih =>
    rw [lookup?]
    by_cases hj : e.1 = j
    · simp [keys, hj]
    · rw [if_neg hj, ih]
      simp [keys, Ne.symm hj]

end Assoc

namespace Catalogue

theorem get?_set (c : Catalogue) (domain id text : String) :
    (c.set domain id text).get? domain id = some text := by
  unfold get? all? set
  rw [Dict.get?_insert, if_pos rfl, Option.bind_some, Dict.get?_insert, if_pos rfl]

end Catalogue

namespace CatalogueStore

def withText (store : CatalogueStore) (locale domain id text : String) : CatalogueStore :=
  store.add ((Catalogue.empty locale).set domain id text)

variable (store : CatalogueStore) (locale domain id text : String)

theorem textIn?_withText :
    (store.withText locale domain id text).textIn? locale domain id = some text := by
  have hlocale : ((Catalogue.empty locale).set domain id text).locale = locale := rfl
  have hget : ∃ held : Catalogue,
      (store.withText locale domain id text).catalogues.get? locale =
      some (held.set domain id text) := by
    unfold withText add
    dsimp only
    rw [hlocale, Dict.get?_insert, if_pos rfl]
    cases store.catalogues.get? locale with
    | none => exact ⟨Catalogue.empty locale, rfl⟩
    | some held => exact ⟨held, rfl⟩
  obtain ⟨held, hheld⟩ := hget
  unfold textIn?
  rw [hheld]
  exact Catalogue.get?_set held domain id text

variable {store} {locale domain id : String}

/-- A message that neither the locale nor a fallback holds a text for is not found. -/
theorem lookup?_eq_none (h : ∀ l ∈ locale :: store.fallbacks, store.textIn? l domain id = none) :
    store.lookup? domain id locale = none :=
  List.findSome?_eq_none_iff.2 h

end CatalogueStore

/-! ### Parameters -/

namespace Expr

/-- Nothing in an expression looks a message up, or gives one a default. -/
def Untranslated (e : Expr) : Prop :=
  (∀ f ∈ e.filters, f.name ≠ transFilter ∧ f.name ≠ descFilter) ∧ ∀ es k l,
    Expr.choice es k l ∉ e.nodes

/-- The first argument of a `trans` filter is absent, null, or a hash whose keys are string
constants and whose values look nothing up. -/
def PlainParameters : Option Expr → Prop
  | none | some (.const .null _) => True
  | some (.array es _) => ∀ e ∈ es, (∃ k l, e.1 = .string k l) ∧ e.2.Untranslated
  | some _ => False

variable {s s' : Scope}

/-- Outside `trans`, filters do not ask the localizer. -/
theorem agreeAt_filter (e : Expr) {x : String} (as : List Expr) (l : Nat) (hx : x ≠ transFilter) :
    AgreeAt s s' (.filter e x as l) := by
  intro v vs line
  have hx' : ¬x = "trans" := hx
  unfold Filter.apply
  rw [if_neg hx', if_neg hx']
  rfl

theorem eval_eq_of_untranslated (hctx : s.context = s'.context) {e : Expr} (h : e.Untranslated) :
    e.eval s = e.eval s' := by
  refine eval_congr hctx e fun a ha => ?_
  cases a with
  | filter operand x as l =>
    exact agreeAt_filter operand as l (h.1 ⟨operand, x, as, l⟩ (mem_filters.2 ha)).1
  | choice es k l => exact absurd ha (h.2 es k l)
  | _ => trivial

theorem eval_eq_of_plainParameters (hctx : s.context = s'.context) {e : Expr}
    (h : PlainParameters (some e)) : e.eval s = e.eval s' := by
  cases e with
  | const v l => rfl
  | array es l =>
    have hes : evalEntries s es = evalEntries s' es := evalEntries_congr fun p hp => by
      obtain ⟨⟨k, j, hk⟩, hv⟩ := h p hp
      exact ⟨by rw [hk, eval, eval], eval_eq_of_untranslated hctx hv⟩
    rw [eval, eval, hes]
  | _ => exact h.elim

theorem eval_eq_of_namedString {e : Expr} {named : Option String}
    (h : namedString? (some e) = some named) : e.eval s = e.eval s' := by
  cases e with
  | const v l => rfl
  | _ => cases h

/-- The arguments of a chain have the same values in scopes with the same variables. -/
theorem evalList_eq_of_plainParameters (hctx : s.context = s'.context) {args : List Expr}
    {domain named : Option String} (hlen : args.length ≤ 3) (hp : PlainParameters args[0]?)
    (hd : namedString? args[1]? = some domain) (hn : namedString? args[2]? = some named) :
    evalList s args = evalList s' args := by
  refine evalList_congr fun e he => ?_
  obtain ⟨i, hi, rfl⟩ := List.mem_iff_getElem.1 he
  have hget := List.getElem?_eq_getElem hi
  obtain rfl | rfl | rfl : i = 0 ∨ i = 1 ∨ i = 2 := by omega
  · exact eval_eq_of_plainParameters hctx (hget ▸ hp)
  · exact eval_eq_of_namedString (hget ▸ hd)
  · exact eval_eq_of_namedString (hget ▸ hn)

/-- Among entries under string constants, the keys of the values are the strings. -/
theorem keys_of_evalEntries {es : List (Expr × Expr)} (h : ∀ e ∈ es, ∃ k l, e.1 = .string k l)
    (hcount : Elements.hasKey es countParameter = false) {vs : List (String × Value)} :
    evalEntries s es = .ok vs → countParameter ∉ Assoc.keys vs := by
  induction es generalizing vs with
  | nil =>
    intro hv
    cases hv
    exact List.not_mem_nil
  | cons e es ih =>
    intro hv
    obtain ⟨k, l, hk⟩ := h e (List.mem_cons_self ..)
    obtain ⟨key, x⟩ := e
    cases hk
    rw [Elements.hasKey, List.any_cons, Bool.or_eq_false_iff] at hcount
    obtain ⟨v, hv, hrest⟩ := Outcome.bind_eq_ok.1 hv
    cases hv
    obtain ⟨w, hw, hrest⟩ := Outcome.bind_eq_ok.1 hrest
    obtain ⟨ws, hws, he⟩ := Outcome.bind_eq_ok.1 hrest
    cases he
    intro hmem
    rcases List.mem_cons.1 hmem with heq | hmem
    · have hkey : k = countParameter := heq.symm
      exact absurd hcount.1 (by simp [hkey])
    · exact ih (fun e he => h e (List.mem_cons_of_mem _ he)) hcount.2 hws hmem

end Expr

/-! ### Chains without a translation -/

theorem Filter.apply_replace (l : Localizer) (locale : Option String) (operand : Value)
    (args : List Value) (line : Nat) :
    apply l locale Chain.replaceFilter operand args line =
      parametersAt args 0 line >>= fun params => .ok (.string (params.fill operand.text)) := rfl

namespace Parameters

/-- Without a count among them, parameters choose no plural form. -/
theorem render_eq_fill {params : Parameters} (h : params.get? countParameter = none)
    (message locale : String) : params.render message locale = params.fill message := by
  unfold render
  rw [h, Option.bind_none]

/-- The parameters that a hash stands for have the names of its entries. -/
theorem get?_ofList_eq_none {vs : List (String × Value)} {j : String} (h : j ∉ Assoc.keys vs) :
    (Dict.ofList ((Assoc.ofList vs).map fun e => (e.1, e.2.text))).get? j = none := by
  refine Assoc.lookup?_eq_none_iff.2 fun hmem => h (Assoc.mem_keys_ofList.1 ?_)
  have hkeys := Assoc.mem_keys_ofList.1 hmem
  rwa [Assoc.keys, List.map_map] at hkeys

end Parameters

namespace Chain

variable {store : CatalogueStore} {config : Config} {context : Context} {id default : String}
    {args : List Expr}
  {domain named : Option String} {l l₁ l₂ l₃ : Nat}

/-- Without the key of a count in the chain, its parameters hold no count. -/
theorem get?_count_of_evalList {s : Scope} {vs : List Value} {params : Parameters}
    (hc : args.any countsAmong = false) (hp : Expr.PlainParameters args[0]?)
    (hvs : Expr.evalList s args = .ok vs) (hparams : Filter.parametersAt vs 0 l = .ok params) :
    params.get? countParameter = none := by
  cases args with
  | nil =>
    cases hvs
    cases hparams
    rfl
  | cons a as =>
    obtain ⟨v, ws, rfl, hv, -⟩ := Expr.of_evalList_cons hvs
    rw [List.any_cons, Bool.or_eq_false_iff] at hc
    rw [List.getElem?_cons_zero] at hp
    cases a with
    | const w k =>
      cases w with
      | null =>
        cases hv
        cases hparams
        rfl
      | _ => exact hp.elim
    | array es k =>
      obtain ⟨entries, hentries, he⟩ := Outcome.bind_eq_ok.1 hv
      cases he
      cases hparams
      exact Parameters.get?_ofList_eq_none
        (Expr.keys_of_evalEntries (fun e he => (hp e he).1) hc.1 hentries)
    | _ => exact hp.elim

/-- The domain and the locale of a chain have values. -/
theorem exists_evalList_tail {s : Scope} (hlen : args.length ≤ 3)
    (hd : Expr.namedString? args[1]? = some domain) (hn : Expr.namedString? args[2]? = some named) :
    ∃ vs, Expr.evalList s args.tail = .ok vs := by
  have hvalue : ∀ {e : Expr} {x : Option String}, Expr.namedString? (some e) = some x → ∃ v,
      e.eval s = .ok v := by
    intro e x h
    cases e with
    | const v l => exact ⟨_, rfl⟩
    | _ => cases h
  match args, hlen, hd, hn with
  | [], _, _, _ | [_], _, _, _ => exact ⟨[], rfl⟩
  | [_, e], _, hd, _ =>
    obtain ⟨v, hv⟩ := hvalue hd
    exact ⟨[v], Expr.evalList_cons hv rfl⟩
  | [_, e, e'], _, hd, hn =>
    obtain ⟨v, hv⟩ := hvalue hd
    obtain ⟨w, hw⟩ := hvalue hn
    exact ⟨[v, w], Expr.evalList_cons hv (Expr.evalList_cons hw rfl)⟩
  | _ :: _ :: _ :: _ :: _, hlen, _, _ =>
    simp only [List.length_cons] at hlen
    omega

/-- The default of a chain without a count has the parameters put in as a text for the message would
have. -/
theorem eval_filledDefault {s : Scope} (hlen : args.length ≤ 3) (hc : args.any countsAmong = false)
    (hp : Expr.PlainParameters args[0]?) (hd : Expr.namedString? args[1]? = some domain)
    (hn : Expr.namedString? args[2]? = some named) (locale : String) :
    (onText id args (.string default l) [] l₁ l₂ l₃).filledDefault.eval s =
      Expr.evalList s args >>= fun vs => Filter.parametersAt vs 0 l₂ >>= fun params =>
        .ok (.string (params.render default locale)) := by
  obtain ⟨ws, hws⟩ : ∃ ws, Expr.evalList s args.tail = .ok ws := exists_evalList_tail hlen hd hn
  unfold filledDefault
  rw [kind_onText, hc]
  cases args with
  | nil =>
    show Except.ok (Value.string default) = .ok (.string (Parameters.render .empty default locale))
    rw [Parameters.render_empty]
  | cons a as =>
    show (Expr.filter (.string default l) replaceFilter [a] l₂).eval s = _
    rw [Expr.eval, Expr.eval, Outcome.ok_bind]
    cases hv : a.eval s with
    | error e =>
      have herror : ∀ es, Expr.evalList s (a :: es) = .error e :=
        fun es => by rw [Expr.evalList, hv, Outcome.error_bind]
      rw [herror, herror]
      rfl
    | ok v =>
      have hvs : Expr.evalList s (a :: as) = .ok (v :: ws) := Expr.evalList_cons hv hws
      have hhead : Filter.parametersAt [v] 0 l₂ = Filter.parametersAt (v :: ws) 0 l₂ := rfl
      rw [Expr.evalList_cons hv (show Expr.evalList s [] = .ok [] from rfl), hvs, Outcome.ok_bind,
        Outcome.ok_bind, Filter.apply_replace, hhead]
      cases hparams : Filter.parametersAt (v :: ws) 0 l₂ with
      | error e => rfl
      | ok params =>
        rw [Outcome.ok_bind, Outcome.ok_bind,
          Parameters.render_eq_fill (get?_count_of_evalList hc hp hvs hparams)]
        rfl

/-- The replacement of a chain without a translation renders the default as a text for the
message. -/
theorem eval_replacement (hlen : args.length ≤ 3) (hp : Expr.PlainParameters args[0]?)
    (hd : Expr.namedString? args[1]? = some domain) (hn : Expr.namedString? args[2]? = some named)
    (hid : ∀ l ∈ store.localeFor config named :: store.fallbacks,
      store.textIn? l (domain.getD config.defaultDomain) id = none)
    (hdefault : ∀ l ∈ store.localeFor config named :: store.fallbacks,
      store.textIn? l (domain.getD config.defaultDomain) default = none) :
    (onText id args (.string default l) [] l₁ l₂ l₃).replacement.eval (store.scope config context) =
      Expr.evalList (store.scope config context) args >>= fun vs =>
        Filter.parametersAt vs 0 l₂ >>= fun params =>
          .ok (.string (params.render default (store.localeFor config named))) := by
  have hchoice : (onText id args (.string default l) [] l₁ l₂ l₃).choice.eval
      (store.scope config context) =
      Expr.evalList (store.scope config context) args >>= fun vs =>
        Filter.parametersAt vs 0 l₂ >>= fun params =>
          .ok (.string (params.render default (store.localeFor config named))) := by
    have htext := hid _ (List.mem_cons_self ..)
    rw [eval_choice (d := .string default) rfl hd hn]
    simp only [CatalogueStore.scope_choice, htext, Option.isSome_none, Bool.false_eq_true,
      if_false, Value.text, CatalogueStore.scope_trans, CatalogueStore.lookup?_eq_none hdefault,
      Option.getD_none]
  have hconditional (hc : args.any countsAmong = false) :
      (onText id args (.string default l) [] l₁ l₂ l₃).conditional.eval
        (store.scope config context) =
        Expr.evalList (store.scope config context) args >>= fun vs =>
          Filter.parametersAt vs 0 l₂ >>= fun params =>
            .ok (.string (params.render default (store.localeFor config named))) := by
    obtain ⟨ws, hws⟩ : ∃ ws, Expr.evalList (store.scope config context) args.tail = .ok ws :=
      exists_evalList_tail hlen hd hn
    have hmissing : (store.scope config context).localizer.trans id .empty domain
        (named.or (store.scope config context).locale) = id := by
      rw [CatalogueStore.scope_trans, CatalogueStore.lookup?_eq_none hid, Option.getD_none,
        Parameters.render_empty]
    rw [eval_conditional hc hws hd hn, if_pos hmissing]
    exact eval_filledDefault hlen hc hp hd hn _
  unfold replacement
  rw [kind_onText]
  cases hc : args.any countsAmong with
  | true => exact hchoice
  | false =>
    cases args with
    | nil => exact hconditional hc
    | cons a as => exact hconditional hc

/-- A default that is a constant plays no part in the value of what it is given to. -/
theorem eval_desc_string {s : Scope} (e : Expr) :
    (Expr.filter e descFilter [.string default l] l₃).eval s = e.eval s := by
  rw [Expr.eval]
  cases e.eval s with
  | error e => rfl
  | ok v => rfl

/-- **A default stands in for a missing message.**  Where neither the locale of a chain nor a
fallback has a text for the message, or for the default taken as a message, the replacement of the
chain evaluates as the chain itself does once the default is written into the catalogue of the
locale: to the default with the parameters put in and the plural form chosen, or to the same
error. -/
theorem replacement_acts_as_entry (store : CatalogueStore) (config : Config) (context : Context)
    (id default : String) (args : List Expr) (domain named : Option String) (l l₁ l₂ l₃ : Nat)
    (hlen : args.length ≤ 3) (hp : Expr.PlainParameters args[0]?)
    (hd : Expr.namedString? args[1]? = some domain) (hn : Expr.namedString? args[2]? = some named)
    (hid : ∀ l ∈ store.localeFor config named :: store.fallbacks,
      store.textIn? l (domain.getD config.defaultDomain) id = none)
    (hdefault : ∀ l ∈ store.localeFor config named :: store.fallbacks,
      store.textIn? l (domain.getD config.defaultDomain) default = none) :
    ∃ c, ofFilter? ⟨.filter (.string id l₁) transFilter args l₂, descFilter,
        [.string default l], l₃⟩ = .ok (some c) ∧
      c.replacement.eval (store.scope config context) =
        (Expr.filter (.filter (.string id l₁) transFilter args l₂) descFilter
          [.string default l] l₃).eval
          ((store.withText (store.localeFor config named) (domain.getD config.defaultDomain)
            id default).scope config context) ∧
      c.replacement.eval (store.scope config context) =
        Expr.evalList (store.scope config context) args >>= fun vs =>
          Filter.parametersAt vs 0 l₂ >>= fun params =>
            .ok (.string (params.render default (store.localeFor config named))) := by
  refine ⟨onText id args (.string default l) [] l₁ l₂ l₃, rfl, ?_,
    eval_replacement hlen hp hd hn hid hdefault⟩
  have htext :=
    store.textIn?_withText (store.localeFor config named)
      (domain.getD config.defaultDomain) id default
  have hlocale :
      (store.withText (store.localeFor config named) (domain.getD config.defaultDomain)
        id default).localeFor config named = store.localeFor config named := rfl
  rw [eval_replacement hlen hp hd hn hid hdefault]
  generalize store.withText (store.localeFor config named) (domain.getD config.defaultDomain)
    id default = extended at *
  have hcontext : (store.scope config context).context = (extended.scope config context).context :=
    rfl
  have hargs : Expr.evalList (store.scope config context) args =
      Expr.evalList (extended.scope config context) args :=
    Expr.evalList_eq_of_plainParameters hcontext hlen hp hd hn
  rw [eval_desc_string, eval_trans hd hn, hargs]
  rw [← hlocale] at htext
  simp only [CatalogueStore.scope_trans_of_textIn? _ htext, hlocale]

/-- An English store that falls back on German.  Both locales know of pears; apples are known in
another domain and in French only. -/
def fruits : CatalogueStore :=
  (((⟨"en", ["de"], .empty⟩ : CatalogueStore).add
    (((Catalogue.empty "en").set "messages" "pears" "Pears").set
      "shop" "apples" "Apples for sale")).add
    ((Catalogue.empty "de").set "messages" "pears" "Birnen")).add
    ((Catalogue.empty "fr").set "messages" "apples" "Pommes")

/-- A chain that counts, where neither English nor German has its message: the plural form is chosen
in the default. -/
theorem replacement_acts_as_entry_apples :
    Expr.PlainParameters (some (.array [(.string "%count%" 1, .number (.ofNat 3) 1)] 1)) ∧
      (∀ l ∈ ["en", "de"], fruits.textIn? l "messages" "pears" ≠ none ∧
        fruits.textIn? l "messages" "apples" = none) ∧
      ∃ c, ofFilter?
          ⟨.filter (.string "apples" 1) transFilter
            [.array [(.string "%count%" 1, .number (.ofNat 3) 1)] 1] 1,
            descFilter, [.string "one apple|%count% apples" 1], 1⟩ = .ok (some c) ∧
        c.replacement.eval (fruits.scope {} .empty) = .ok (.string "3 apples") := by
  have hplain :
      Expr.PlainParameters (some (.array [(.string "%count%" 1, .number (.ofNat 3) 1)] 1)) := by
    intro e he
    rw [List.mem_singleton.1 he]
    refine ⟨⟨_, _, rfl⟩, fun f hf => absurd hf List.not_mem_nil, fun es k l hmem => ?_⟩
    cases List.mem_singleton.1 hmem
  have hid : ∀ l ∈ ["en", "de"],
      fruits.textIn? l "messages" "pears" ≠ none ∧ fruits.textIn? l "messages" "apples" = none := by
    decide +kernel
  have hdefault : ∀ l ∈ ["en", "de"], fruits.textIn? l "messages" "one apple|%count% apples" =
      none := by decide +kernel
  obtain ⟨c, hc, -, heval⟩ :=
    replacement_acts_as_entry fruits {} .empty "apples" "one apple|%count% apples"
    [.array [(.string "%count%" 1, .number (.ofNat 3) 1)] 1] none none 1 1 1 1 (by decide)
      hplain rfl rfl
    (fun l hl => (hid l hl).2) hdefault
  refine ⟨hplain, hid, c, hc, heval.trans ?_⟩
  decide +kernel

end Chain

end Phrasebook

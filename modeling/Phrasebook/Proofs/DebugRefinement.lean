import Phrasebook.Proofs.ChainEvaluation
import Phrasebook.Proofs.PassWalk

/-!
# Debug compilation of translated templates

Where every chain of a template has a translation of its own, putting defaults in changes no
rendered text.

* `Application.Translated` : a `desc` filter over a message for which its own locale holds a text
  other than the message;
* `Chain.refines_replacement` : the replacement of such a chain refines the chain;
* `DefaultPass.carries_of_translated` : the pass refines every expression in which all chains are
  translated;
* `Engine.debug_refines_release` : the debug engine compiles such a template, and renders what the
  release engine renders.
-/

namespace Phrasebook

/-- A `desc` filter with a default, directly over a `trans` filter whose message is a string
constant and whose domain and locale are string constants, null or absent, where the locale's own
catalogue holds a text for the message, and one that differs from it. -/
def Application.Translated (store : CatalogueStore) (config : Config) (f : Application) : Prop :=
  ∃ (id : String) (args more : List Expr) (default : Expr) (l₁ l₂ l₃ : Nat)
    (domain named : Option String) (text : String),
    f = (Chain.onText id args default more l₁ l₂ l₃).desc ∧
      Expr.namedString? args[1]? = some domain ∧ Expr.namedString? args[2]? = some named ∧
      store.textIn? (store.localeFor config named) (domain.getD config.defaultDomain) id =
        some text ∧ text ≠ id

/-! ### A translated chain -/

namespace Chain

variable {store : CatalogueStore} {config : Config} {context : Context} {id text : String}
    {args more : List Expr}
  {default : Expr} {domain named : Option String} {l₁ l₂ l₃ : Nat}

/-- The choice in place of a translated chain looks the message up. -/
theorem refines_choice (hd : Expr.namedString? args[1]? = some domain)
    (hn : Expr.namedString? args[2]? = some named)
    (htext : store.textIn? (store.localeFor config named) (domain.getD config.defaultDomain) id =
      some text) :
    Expr.Refines (store.scope config context) (onText id args default more l₁ l₂ l₃).desc.toExpr
      (onText id args default more l₁ l₂ l₃).choice := by
  intro v hv
  obtain ⟨hw, d, hdef⟩ := eval_desc hv
  rw [eval_trans hd hn] at hw
  rw [eval_choice hdef hd hn]
  simp only [CatalogueStore.scope_choice, htext, Option.isSome_some, if_true]
  exact hw

/-- The conditional in place of a translated chain takes the branch that looks the message up. -/
theorem refines_conditional (hc : args.any countsAmong = false)
    (hd : Expr.namedString? args[1]? = some domain) (hn : Expr.namedString? args[2]? = some named)
    (htext : store.textIn? (store.localeFor config named) (domain.getD config.defaultDomain) id =
      some text) (hne : text ≠ id) :
    Expr.Refines (store.scope config context) (onText id args default more l₁ l₂ l₃).desc.toExpr
      (onText id args default more l₁ l₂ l₃).conditional := by
  intro v hv
  obtain ⟨hw, -, -⟩ := eval_desc hv
  have htail : ∃ ws, Expr.evalList (store.scope config context) args.tail = .ok ws := by
    have hw' := hw
    rw [eval_trans hd hn] at hw'
    obtain ⟨vs, hvs, -⟩ := Outcome.bind_eq_ok.1 hw'
    cases args with
    | nil => exact ⟨[], rfl⟩
    | cons a as =>
      obtain ⟨-, ws, -, -, hws⟩ := Expr.of_evalList_cons hvs
      exact ⟨ws, hws⟩
  obtain ⟨ws, hws⟩ := htail
  rw [eval_conditional hc hws hd hn, CatalogueStore.scope_trans_of_textIn? _ htext,
    Parameters.render_empty, if_neg hne]
  exact hw

/-- The replacement of a translated chain refines the chain. -/
theorem refines_replacement (hd : Expr.namedString? args[1]? = some domain)
    (hn : Expr.namedString? args[2]? = some named)
    (htext : store.textIn? (store.localeFor config named) (domain.getD config.defaultDomain) id =
      some text) (hne : text ≠ id) :
    Expr.Refines (store.scope config context) (onText id args default more l₁ l₂ l₃).desc.toExpr
      (onText id args default more l₁ l₂ l₃).replacement := by
  unfold replacement
  rw [kind_onText]
  cases hc : args.any countsAmong with
  | true => exact refines_choice hd hn htext
  | false =>
    cases args with
    | nil => exact refines_conditional hc hd hn htext hne
    | cons a as => exact refines_conditional hc hd hn htext hne

end Chain

/-! ### The walk -/

namespace DefaultPass

variable {R : Expr → Expr → Prop}

/-- A constant is carried along, and so is an array without entries. -/
theorem carries_leaf (hR : ∀ {a b : Expr}, Expr.Rebuilt R a b → R a b) {e : Expr} (n : Nat)
    (he : e.application? = none) (hc : e.children = []) : pass.Carries R (n + 1) e := by
  refine Pass.carries_of_kept leave_eq hR (enter_eq_self fun f hf => ?_) fun c hmem => ?_
  · rw [he] at hf
    cases hf
  · rw [hc] at hmem
    cases hmem

/-- A filter other than `desc` is carried along if its operand and arguments are. -/
theorem carries_filter (hR : ∀ {a b : Expr}, Expr.Rebuilt R a b → R a b) {n : Nat} {e : Expr}
    {x : String} {as : List Expr} {l : Nat} (hx : x ≠ descFilter) (he : pass.Carries R n e)
    (has : ∀ a ∈ as, pass.Carries R n a) : pass.Carries R (n + 1) (.filter e x as l) := by
  refine Pass.carries_of_kept leave_eq hR (enter_eq_self fun f hf => ?_) fun c hmem => ?_
  · cases hf
    exact hx
  · rcases List.mem_cons.1 hmem with rfl | hmem
    · exact he
    · exact has c hmem

section Replacement

variable {id : String} {args more : List Expr} {default : Expr} {l₁ l₂ l₃ n : Nat}

theorem carries_testArgs (hR : ∀ {a b : Expr}, Expr.Rebuilt R a b → R a b)
    (hargs : ∀ a ∈ args, pass.Carries R (n + 1) a) :
    ∀ a ∈ (Chain.onText id args default more l₁ l₂ l₃).testArgs, pass.Carries R (n + 1) a := by
  intro a ha
  unfold Chain.testArgs at ha
  split at ha
  · next p rest _ hrest =>
    have hrest : args = p :: rest := hrest
    rcases List.mem_cons.1 ha with rfl | ha
    · exact carries_leaf hR n rfl rfl
    · exact hargs a (hrest ▸ List.mem_cons_of_mem _ ha)
  · exact hargs a ha

theorem carries_filledDefault (hR : ∀ {a b : Expr}, Expr.Rebuilt R a b → R a b)
    (hargs : ∀ a ∈ args, pass.Carries R (n + 2) a) (hdef : pass.Carries R (n + 2) default)
    (hdef' : pass.Carries R (n + 3) default) :
    pass.Carries R (n + 3) (Chain.onText id args default more l₁ l₂ l₃).filledDefault := by
  unfold Chain.filledDefault
  split
  · next p rest _ hrest =>
    have hrest : args = p :: rest := hrest
    refine carries_filter hR (by decide) hdef fun a ha => ?_
    rw [List.mem_singleton.1 ha]
    exact hargs p (hrest ▸ List.mem_cons_self ..)
  · exact hdef'

theorem carries_children_conditional (hR : ∀ {a b : Expr}, Expr.Rebuilt R a b → R a b)
    (hargs : ∀ a ∈ args, ∀ k, n + 1 ≤ k → pass.Carries R k a)
    (hdef : ∀ k, n + 2 ≤ k → pass.Carries R k default) :
    ∀ c ∈ (Chain.onText id args default more l₁ l₂ l₃).conditional.children,
      pass.Carries R (n + 3) c := by
  have hid : ∀ k, pass.Carries R (k + 1) (.string id l₁) := fun k => carries_leaf hR k rfl rfl
  have htest : pass.Carries R (n + 3) (.binary .equal
      (.filter (.string id l₁) transFilter (Chain.onText id args default more l₁ l₂ l₃).testArgs l₂)
        (.string id l₁) l₂) := by
    refine Pass.carries_of_kept leave_eq hR (enter_eq_self fun f hf => by cases hf) fun c hc => ?_
    simp only [Expr.children, List.mem_cons, List.not_mem_nil, or_false] at hc
    rcases hc with rfl | rfl
    · exact carries_filter hR (by decide) (hid _)
        (carries_testArgs hR fun a ha => hargs a ha _ (by omega))
    · exact hid _
  have hmessage : pass.Carries R (n + 3) (.filter (.string id l₁) transFilter args l₂) :=
    carries_filter hR (by decide) (hid _) fun a ha => hargs a ha _ (by omega)
  intro c hc
  simp only [Chain.conditional, Expr.children, List.mem_cons, List.not_mem_nil, or_false] at hc
  rcases hc with rfl | rfl | rfl
  · exact htest
  · exact carries_filledDefault hR (fun a ha => hargs a ha _ (by omega)) (hdef _ (by omega))
      (hdef _ (by omega))
  · exact hmessage

theorem carries_children_choice (hR : ∀ {a b : Expr}, Expr.Rebuilt R a b → R a b)
    (hargs : ∀ a ∈ args, pass.Carries R (n + 1) a) (hdef : pass.Carries R (n + 1) default) :
    ∀ c ∈ (Chain.onText id args default more l₁ l₂ l₃).choice.children,
      pass.Carries R (n + 1) c := by
  intro c hc
  obtain ⟨e, he, hc⟩ := List.mem_flatMap.1 hc
  obtain ⟨⟨x, l, hkey⟩, hval⟩ := (Elements.mem_foldl_add he).resolve_left List.not_mem_nil
  simp only [List.mem_cons, List.not_mem_nil, or_false] at hc
  rcases hc with rfl | rfl
  · rw [hkey]
    exact carries_leaf hR _ rfl rfl
  · rcases List.mem_cons.1 hval with hval | hval
    · rw [hval]
      exact carries_leaf hR _ rfl rfl
    · rcases List.mem_cons.1 hval with hval | hval
      · rw [hval]
        exact hdef
      · exact hargs _ hval

/-- The children of the replacement of a chain are carried along if the parts of the chain are.  The
arguments stand two levels deeper in the test than in the chain, the default one level deeper. -/
theorem carries_children_replacement (hR : ∀ {a b : Expr}, Expr.Rebuilt R a b → R a b)
    (hargs : ∀ a ∈ args, ∀ k, n + 1 ≤ k → pass.Carries R k a)
    (hdef : ∀ k, n + 2 ≤ k → pass.Carries R k default) :
    ∀ c ∈ (Chain.onText id args default more l₁ l₂ l₃).replacement.children,
      pass.Carries R (n + 3) c := by
  unfold Chain.replacement
  split
  · exact carries_children_choice hR (fun a ha => hargs a ha _ (by omega)) (hdef _ (by omega))
  · exact carries_children_conditional hR hargs hdef
  · exact carries_children_conditional hR hargs hdef

end Replacement

/-- A translated chain is carried along if its arguments and its default are. -/
theorem carries_chain {store : CatalogueStore} {config : Config} {context : Context}
    {f : Application} {n : Nat} (hf : f.Translated store config)
    (hargs : ∀ a ∈ f.operand.children, ∀ k, n + 1 ≤ k →
      pass.Carries (Expr.Refines (store.scope config context)) k a)
    (hdef : ∀ a ∈ f.args, ∀ k, n + 2 ≤ k →
      pass.Carries (Expr.Refines (store.scope config context)) k a) :
    pass.Carries (Expr.Refines (store.scope config context)) (n + 4) f.toExpr := by
  have hR : ∀ {a b : Expr}, Expr.Rebuilt (Expr.Refines (store.scope config context)) a b →
      Expr.Refines (store.scope config context) a b := Expr.refines_of_rebuilt
  obtain ⟨id, args, more, default, l₁, l₂, l₃, domain, named, text, rfl, hd, hnamed, htext, hne⟩ :=
    hf
  have hchildren : ∀ c ∈ (Chain.onText id args default more l₁ l₂ l₃).replacement.children,
      pass.Carries (Expr.Refines (store.scope config context)) (n + 3) c :=
    carries_children_replacement hR (fun a ha => hargs a (List.mem_cons_of_mem _ ha))
      (hdef default (List.mem_cons_self ..))
  obtain ⟨e', hwalk, hb⟩ :=
    Pass.exists_walk leave_eq (enter_chain (Chain.ofFilter?_onText id args default more l₁ l₂ l₃))
    hchildren
  exact ⟨e', hwalk, (Chain.refines_replacement hd hnamed htext hne).trans (hR hb)⟩

/-- The pass refines every expression in which all chains are translated, within the depth it allows
itself. -/
theorem carries_of_translated (store : CatalogueStore) (config : Config) (context : Context)
    (d : Nat) :
    ∀ e : Expr, e.depth ≤ d → (∀ f ∈ e.filters, f.name = descFilter → f.Translated store config) →
      ∀ n, 2 * e.depth ≤ n → pass.Carries (Expr.Refines (store.scope config context)) n e := by
  induction d with
  | zero =>
    intro e he
    have := e.depth_pos
    omega
  | succ d ih =>
    intro e he h n hn
    by_cases hdesc : ∃ f, e.application? = some f ∧ f.name = descFilter
    · obtain ⟨f, hf, hname⟩ := hdesc
      obtain rfl : e = f.toExpr := by
        cases e <;> cases hf
        rfl
      -- the arguments are two levels deep in the chain, the default is one
      have hwrap : f.operand ∈ f.toExpr.children := List.mem_cons_self ..
      have hlt := Expr.depth_lt_of_mem_children hwrap
      have hpos := f.operand.depth_pos
      obtain ⟨k, rfl⟩ : ∃ k, n = k + 4 := ⟨n - 4, by omega⟩
      refine carries_chain (h f (Expr.mem_filters.2 (Expr.self_mem_nodes _)) hname)
        (fun a ha j hj => ?_) fun a ha j hj => ?_
      · have hlt' := Expr.depth_lt_of_mem_children ha
        exact ih a (by omega)
          (fun g hg => h g (Expr.mem_filters_of_child hwrap (Expr.mem_filters_of_child ha hg))) j
          (by omega)
      · have hchild : a ∈ f.toExpr.children := List.mem_cons_of_mem _ ha
        have hlt' := Expr.depth_lt_of_mem_children hchild
        exact ih a (by omega) (fun g hg => h g (Expr.mem_filters_of_child hchild hg)) j (by omega)
    · have hpos := e.depth_pos
      obtain ⟨m, rfl⟩ : ∃ m, n = m + 1 := ⟨n - 1, by omega⟩
      refine Pass.carries_of_kept leave_eq Expr.refines_of_rebuilt
        (enter_eq_self fun f hf hname => hdesc ⟨f, hf, hname⟩) fun c hc => ?_
      have hlt := Expr.depth_lt_of_mem_children hc
      exact ih c (by omega) (fun f hf => h f (Expr.mem_filters_of_child hc hf)) m (by omega)

end DefaultPass

/-! ### Templates -/

namespace Engine

variable {store : CatalogueStore} {config : Config} {context : Context}

theorem pipeline_debug (config : Config) (translator : Translator) :
    (make { config with debug := true } translator).pipeline = ⟨[DefaultPass.pass]⟩ := by
  show (⟨[DefaultPass.pass].mergeSort _⟩ : Pipeline (Except Error)) = _
  rw [List.mergeSort_singleton]

/-- Without passes a template is compiled to itself. -/
theorem runTemplate_empty (t : Template) :
    (⟨[]⟩ : Pipeline (Except Error)).runTemplate t = .ok t := by
  have hbody : ∀ body : List Segment,
      body.mapM (⟨[]⟩ : Pipeline (Except Error)).runSegment = .ok body := by
    intro body
    induction body with
    | nil => rfl
    | cons a body ih =>
      have ha : (⟨[]⟩ : Pipeline (Except Error)).runSegment a = .ok a := by cases a <;> rfl
      rw [List.mapM_cons, ha, ih]
      rfl
  unfold Pipeline.runTemplate
  rw [hbody]
  rfl

/-- The debug switch plays no part once expressions are evaluated. -/
theorem eval_scope_debug (b b' : Bool) (e : Expr) :
    e.eval (store.scope { config with debug := b } context) =
      e.eval (store.scope { config with debug := b' } context) := by
  refine Expr.eval_congr (by rfl) e fun a _ => ?_
  cases a with
  | filter e x as l => exact fun v vs l => rfl
  | choice es k l => exact fun vs l => rfl
  | _ => trivial

/-- The segment that the pass makes of one with translated chains only is rendered the same. -/
theorem exists_runSegment {a : Segment}
    (h : ∀ e, a.expr? = some e → ∀ f ∈ e.filters, f.name = descFilter → f.Translated store config) :
    ∃ a', (⟨[DefaultPass.pass]⟩ : Pipeline (Except Error)).runSegment a = .ok a' ∧
      ∀ s, a.render (store.scope config context) = .ok s →
      a'.render (store.scope config context) = .ok s := by
  cases a with
  | text data line => exact ⟨_, rfl, fun s hs => hs⟩
  | print e line =>
    obtain ⟨e', hwalk, hR⟩ :=
      DefaultPass.carries_of_translated store config context e.depth e (Nat.le_refl _) (h e rfl)
      (2 * e.depth) (Nat.le_refl _)
    refine ⟨.print e' line, ?_, fun s hs => ?_⟩
    · have hrun : (⟨[DefaultPass.pass]⟩ : Pipeline (Except Error)).run e = .ok e' := by
        show (DefaultPass.pass.walk (2 * e.depth) e >>= fun e' => .ok e') = _
        rw [hwalk]
        rfl
      show ((⟨[DefaultPass.pass]⟩ : Pipeline (Except Error)).run e >>= fun e' => _) = _
      rw [hrun]
      rfl
    · obtain ⟨v, hv, he⟩ := Outcome.bind_eq_ok.1 hs
      show (e'.eval _ >>= fun v => .ok v.text) = _
      rw [hR v hv]
      exact he

theorem renderAll_of_forall₂ {s : Scope} {body body' : List Segment}
    (h : List.Forall₂ (fun a a' => ∀ text, a.render s = .ok text → a'.render s = .ok text)
      body body') {text : String} :
    Segment.renderAll s body = .ok text → Segment.renderAll s body' = .ok text := by
  induction h generalizing text with
  | nil => exact id
  | cons ha _ ih =>
    intro ht
    obtain ⟨x, hx, hrest⟩ := Outcome.bind_eq_ok.1 ht
    obtain ⟨y, hy, he⟩ := Outcome.bind_eq_ok.1 hrest
    rw [Segment.renderAll, ha x hx, Outcome.ok_bind, ih hy, Outcome.ok_bind, he]

theorem renderAll_scope_debug (b b' : Bool) (body : List Segment) :
    Segment.renderAll (store.scope { config with debug := b } context) body =
      Segment.renderAll (store.scope { config with debug := b' } context) body := by
  induction body with
  | nil => rfl
  | cons a body ih =>
    have ha : a.render (store.scope { config with debug := b } context) =
        a.render (store.scope { config with debug := b' } context) := by
      cases a with
      | text data line => rfl
      | print e line => rw [Segment.render, Segment.render, eval_scope_debug b b' e]
    rw [Segment.renderAll, Segment.renderAll, ha, ih]

/-- **Debug compilation refines release compilation where everything is translated.**  If every
`desc` filter of a template is applied to a message that its own locale translates, the debug engine
compiles the template, and whatever the release engine renders, the debug engine renders too. -/
theorem debug_refines_release (store : CatalogueStore) (config : Config) (source name : String)
    (t : Template) (hparse : Template.parse source name = .ok t)
    (h : ∀ e ∈ t.expressions, ∀ f ∈ e.filters, f.name = descFilter → f.Translated store config) :
    (∃ t', (make { config with debug := true } store.toTranslator).compile source name = .ok t') ∧
      ∀ (context : Context) (text : String),
        (make { config with debug := false } store.toTranslator).renderSource source name context =
            .ok text →
          (make { config with debug := true } store.toTranslator).renderSource source name context =
            .ok text := by
  have hcompile : ∀ context, ∃ t',
      (make { config with debug := true } store.toTranslator).compile source name = .ok t' ∧
      ∀ text, t.render (store.scope { config with debug := true } context) = .ok text →
        t'.render (store.scope { config with debug := true } context) = .ok text := by
    intro context
    have hsegment :
        ∀ a ∈ t.body, ∃ a', (⟨[DefaultPass.pass]⟩ : Pipeline (Except Error)).runSegment a = .ok a' ∧
        ∀ text, a.render (store.scope { config with debug := true } context) = .ok text →
          a'.render (store.scope { config with debug := true } context) = .ok text :=
      fun a ha => exists_runSegment fun e he => h e (List.mem_filterMap.2 ⟨a, ha, he⟩)
    obtain ⟨body', hbody, hR⟩ := Expr.exists_forall₂_mapM hsegment
    refine ⟨⟨t.name, body'⟩, ?_, fun text ht => renderAll_of_forall₂ hR ht⟩
    unfold compile parse
    rw [hparse, Outcome.ok_bind, pipeline_debug]
    unfold Pipeline.runTemplate
    rw [hbody]
    rfl
  refine ⟨?_, fun context text hrelease => ?_⟩
  · obtain ⟨t', ht', -⟩ := hcompile .empty
    exact ⟨t', ht'⟩
  · obtain ⟨t', ht', hR⟩ := hcompile context
    unfold renderSource
    rw [ht', Outcome.ok_bind]
    refine hR text ?_
    unfold renderSource compile parse at hrelease
    rw [hparse, Outcome.ok_bind] at hrelease
    have hempty : (make { config with debug := false } store.toTranslator).pipeline = ⟨[]⟩ := rfl
    rw [hempty, runTemplate_empty, Outcome.ok_bind] at hrelease
    rw [← hrelease]
    exact renderAll_scope_debug true false t.body

/-- A store with a greeting, and with a word to greet with. -/
def greetings : CatalogueStore :=
  (CatalogueStore.empty "en").add
    (((Catalogue.empty "en").set "messages" "greet" "Hello %n%").set "messages" "who" "world")

/-- A template that greets, with one chain within the parameters of another. -/
def greetingSource : String :=
  "Hi \x7b\x7b 'greet'|trans(\x7b'%n%': 'who'|trans|desc('you')\x7d)|desc('Hey %n%') \x7d\x7d!"

def greetedChain : Chain := .onText "who" [] (.string "you" 1) [] 1 1 1

/-- The chain of a greeting with another chain among its parameters. -/
def greetingChain : Chain :=
  .onText "greet" [.array [(.string "%n%" 1, greetedChain.desc.toExpr)] 1]
    (.string "Hey %n%" 1) [] 1 1 1

/-- A chain within the parameters of another: both engines greet the world. -/
theorem debug_refines_release_greeting :
    Template.parse greetingSource "page" =
        .ok ⟨"page", [.text "Hi " 1, .print greetingChain.desc.toExpr 1, .text "!" 1]⟩ ∧
      (∀ f ∈ greetingChain.desc.toExpr.filters, f.name = descFilter → f.Translated greetings {}) ∧
      (make { debug := true } greetings.toTranslator).renderSource greetingSource "page" .empty =
        .ok "Hi Hello world!" := by
  have hparse : Template.parse greetingSource "page" =
      .ok ⟨"page", [.text "Hi " 1, .print greetingChain.desc.toExpr 1, .text "!" 1]⟩ := by
    decide +kernel
  have htranslated :
      ∀ f ∈ greetingChain.desc.toExpr.filters, f.name = descFilter → f.Translated greetings {} := by
    intro f hf hname
    have hfilters : greetingChain.desc.toExpr.filters =
        [greetingChain.desc, greetingChain.trans, greetedChain.desc, greetedChain.trans] := rfl
    simp only [hfilters, List.mem_cons, List.not_mem_nil, or_false] at hf
    rcases hf with rfl | rfl | rfl | rfl
    · exact ⟨"greet", _, _, _, 1, 1, 1, none, none, "Hello %n%", rfl, rfl,
        rfl, by decide +kernel, by decide⟩
    · exact absurd hname (by decide)
    · exact ⟨"who", _, _, _, 1, 1, 1, none, none, "world", rfl, rfl,
        rfl, by decide +kernel, by decide⟩
    · exact absurd hname (by decide)
  refine ⟨hparse, htranslated, ?_⟩
  refine (debug_refines_release greetings {} _ "page" _ hparse fun e he => ?_).2 .empty _
    (by decide +kernel)
  rw [List.mem_singleton.1 he]
  exact htranslated

end Engine

end Phrasebook

import Phrasebook.Proofs.JsonRecords
import Phrasebook.Proofs.LooseEquality
import Phrasebook.Proofs.Nodes
import Phrasebook.Template.Json
import Phrasebook.Value.Json

/-!
# Expressions and values come back from JSON

* `Expr.Sayable` : expressions whose numbers are finite and whose lines fit in a word;
* `Expr.ComesBack` : an expression is read back from its tree just if it is sayable and there is
  room for the depth of the tree;
* `Expr.comesBack` : every expression does so, from one lemma for each kind of node;
* `Value.ofJson?_toJson_iff` : a value is read back from its tree just if no map has a key twice and
  its numbers are finite;
* `Template.parseJson_compress_iff` : a template is read back from its compact text just if its
  segments can be said in JSON and the tree is not too deep;
* `Json.forms_read_back` : when expressions and values are read back from their compact text.
-/

namespace Phrasebook

open Json (tagged)

/-! ### Literals -/

/-- A literal that JSON can say: a number has to be finite. -/
def Literal.Sayable (v : Literal) : Prop := ∀ x, v = .number x → x.isFinite = true

theorem Literal.variant?_toJson {tag : String} {index : Nat}
    (hindex : kinds.findIdx? (· == tag) = some index) (content : Option Json) (settled : Bool)
    (room : Nat) :
    Json.variant? "kind" "value" kinds settled room
      (.object (Json.record ["kind", "value"] (Json.text tag :: content.toList))) =
        some ⟨index, content, settled⟩ :=
  Json.variant?_record (by decide) hindex content

theorem Literal.ofJson?_succ_iff {v : Literal} (settled : Bool) (room : Nat) :
    Literal.ofJson? settled (room + 1) v.toJson = some v ↔ v.Sayable := by
  cases v with
  | string s =>
    have hvariant : Json.variant? "kind" "value" kinds settled room (string s).toJson =
        some ⟨0, some (Json.text s), settled⟩ :=
      variant?_toJson (show kinds.findIdx? (· == "String") = some 0 from rfl)
        (some (Json.text s)) settled room
    rw [Literal.ofJson?, hvariant]
    exact ⟨fun _ _ h => (by cases h), fun _ => rfl⟩
  | number x =>
    have hvariant : Json.variant? "kind" "value" kinds settled room (number x).toJson =
        some ⟨1, some (.ofDouble x), settled⟩ :=
      variant?_toJson (show kinds.findIdx? (· == "Number") = some 1 from rfl)
        (some (.ofDouble x)) settled room
    have hcontent : Literal.ofJson? settled (room + 1) (number x).toJson =
        (Json.ofDouble x).finite?.map number := by
      rw [Literal.ofJson?, hvariant]
      rfl
    rw [hcontent, Option.map_eq_some_iff]
    simp [Sayable, Json.finite?_ofDouble_iff]
  | bool b =>
    have hvariant : Json.variant? "kind" "value" kinds settled room (bool b).toJson =
        some ⟨2, some (.bool b), settled⟩ :=
      variant?_toJson (show kinds.findIdx? (· == "Bool") = some 2 from rfl)
        (some (.bool b)) settled room
    rw [Literal.ofJson?, hvariant]
    exact ⟨fun _ _ h => (by cases h), fun _ => rfl⟩
  | null =>
    have hvariant :
        Json.variant? "kind" "value" kinds settled room null.toJson = some ⟨3, none, settled⟩ :=
      variant?_toJson (show kinds.findIdx? (· == "Null") = some 3 from rfl) none settled room
    rw [Literal.ofJson?, hvariant]
    exact ⟨fun _ _ h => (by cases h), fun _ => rfl⟩

theorem Literal.depth_toJson (v : Literal) : v.toJson.depth = 1 := by
  cases v with
  | number x =>
    have hnumber : (Json.ofDouble x).depth = 0 := by
      cases hfinite : x.isFinite with
      | false => rw [Json.ofDouble_eq_null hfinite]; rfl
      | true =>
        obtain ⟨spelling, hof, -⟩ := Json.exists_ofDouble hfinite
        rw [hof]
        rfl
    simp [toJson, Json.ofMembers, hnumber, Json.text]
  | _ => rfl

/-- A literal is read back from its tree, which takes one level, just if it is sayable. -/
@[simp] theorem Literal.ofJson?_toJson_iff {v : Literal} {settled : Bool} {room : Nat} :
    Literal.ofJson? settled room v.toJson = some v ↔ v.Sayable ∧ v.toJson.depth ≤ room := by
  rw [v.depth_toJson]
  cases room with
  | zero => simp [Literal.ofJson?]
  | succ r => rw [ofJson?_succ_iff, and_iff_left (Nat.le_add_left 1 r)]

theorem Literal.clean_toJson (v : Literal) : v.toJson.Clean := by
  cases v with
  | string s => exact Json.clean_ofMembers (by simpa using ⟨.string _, .string _⟩)
  | number x => exact Json.clean_ofMembers (by simpa using ⟨.string _, Json.clean_ofDouble x⟩)
  | bool b => exact Json.clean_ofMembers (by simpa using ⟨.string _, .bool b⟩)
  | null => exact Json.clean_ofMembers (by simpa using .string _)

namespace Expr

/-! ### What can be said -/

/-- Whether JSON can say a node, apart from its children: its number is finite, and its lines fit in
a word.  A choice has a second line, that of its arguments. -/
def SayableNode : Expr → Prop
  | .const v l => v.Sayable ∧ l < UInt64.size
  | .choice _ argsLine l => argsLine < UInt64.size ∧ l < UInt64.size
  | .name _ l | .array _ l | .filter _ _ _ l | .cond _ _ _ l | .binary _ _ _ l => l < UInt64.size

/-- All nodes can be said in JSON. -/
def Sayable (e : Expr) : Prop := ∀ a ∈ e.nodes, a.SayableNode

theorem sayable_iff {e : Expr} : e.Sayable ↔ e.SayableNode ∧ ∀ c ∈ e.children, c.Sayable := by
  unfold Sayable
  rw [nodes_eq, List.forall_mem_cons, List.forall_mem_flatMap]

/-- An expression that is read back from its tree just if it can be said in JSON and there is room
for the depth of the tree. -/
def ComesBack (e : Expr) : Prop :=
  ∀ settled room, ofJson? room settled e.toJson = some e ↔ e.Sayable ∧ e.toJson.depth ≤ room

variable {e : Expr} {as : List Expr} {es : List (Expr × Expr)} {l room : Nat} {settled : Bool}

/-! ### Lists and entries -/

theorem listToJson_eq (as : List Expr) : listToJson as = as.map toJson := by
  induction as with
  | nil => rfl
  | cons a as ih => rw [listToJson, ih, List.map_cons]

theorem pairsToJson_eq (es : List (Expr × Expr)) :
    pairsToJson es = es.map fun p => .ofMembers [("key", p.1.toJson), ("value", p.2.toJson)] := by
  induction es with
  | nil => rfl
  | cons p es ih => rw [pairsToJson, ih, List.map_cons]

theorem mapM_map_eq_some_iff {α : Type} {f : Json → Option α} {g : α → Json} {xs : List α} :
    (xs.map g).mapM f = some xs ↔ ∀ x ∈ xs, f (g x) = some x := by
  induction xs with
  | nil => simp
  | cons x xs ih =>
    rw [List.map_cons, List.mapM_cons, List.forall_mem_cons, ← ih]
    simp only [Option.bind_eq_bind, Option.bind_eq_some_iff, Option.pure_def, Option.some.injEq,
      List.cons.injEq]
    constructor
    · rintro ⟨y, hy, ys, hys, rfl, rfl⟩
      exact ⟨hy, hys⟩
    · rintro ⟨hx, hxs⟩
      exact ⟨x, hx, xs, hxs, rfl, rfl⟩

theorem listOf?_toJson_iff (has : ∀ a ∈ as, a.ComesBack) :
    listOf? room settled (.array (listToJson as)) = some as ↔
      (∀ a ∈ as, a.Sayable) ∧ (Json.array (listToJson as)).depth ≤ room := by
  rw [Json.depth_array_le_iff, listToJson_eq]
  cases room with
  | zero => simp [listOf?]
  | succ r =>
    have hitems : (∀ a ∈ as, ofJson? r settled a.toJson = some a) ↔
        (∀ a ∈ as, a.Sayable) ∧ ∀ a ∈ as, a.toJson.depth ≤ r := by
      rw [← forall₂_and]
      exact forall₂_congr fun a ha => has a ha settled r
    rw [listOf?, mapM_map_eq_some_iff, hitems]
    simp only [Nat.add_right_cancel_iff, exists_eq_left', List.forall_mem_map]

theorem pairOf?_toJson_iff {k v : Expr} (hk : k.ComesBack) (hv : v.ComesBack) :
    pairOf? room settled (.ofMembers [("key", k.toJson), ("value", v.toJson)]) = some (k, v) ↔
      (k.Sayable ∧ v.Sayable) ∧
        (Json.ofMembers [("key", k.toJson), ("value", v.toJson)]).depth ≤ room := by
  have hfields : Json.fields? ["key", "value"]
      (.ofMembers [("key", k.toJson), ("value", v.toJson)]) =
      some [some k.toJson, some v.toJson] :=
    Json.fields?_record _ [k.toJson, v.toJson] (by decide) rfl
  rw [Json.depth_ofMembers_le_iff]
  cases room with
  | zero => simp [pairOf?]
  | succ r =>
    rw [pairOf?, hfields]
    simp only [Option.bind_eq_bind, Option.bind_some, Option.bind_eq_some_iff, Option.pure_def,
      Option.some.injEq, Prod.mk.injEq, exists_eq_right_right, hk settled r, hv settled r,
      Nat.add_right_cancel_iff, exists_eq_left', List.forall_mem_cons, List.not_mem_nil,
      false_implies, implies_true, and_true]
    exact and_and_and_comm

theorem pairsOf?_toJson_iff (hes : ∀ p ∈ es, p.1.ComesBack ∧ p.2.ComesBack) :
    pairsOf? room settled (.array (pairsToJson es)) = some es ↔
      (∀ p ∈ es, p.1.Sayable ∧ p.2.Sayable) ∧ (Json.array (pairsToJson es)).depth ≤ room := by
  rw [Json.depth_array_le_iff, pairsToJson_eq]
  cases room with
  | zero => simp [pairsOf?]
  | succ r =>
    have hitems :
        (∀ p ∈ es,
          pairOf? r settled (.ofMembers [("key", p.1.toJson), ("value", p.2.toJson)]) = some p) ↔
        (∀ p ∈ es, p.1.Sayable ∧ p.2.Sayable) ∧
          ∀ p ∈ es, (Json.ofMembers [("key", p.1.toJson), ("value", p.2.toJson)]).depth ≤ r := by
      rw [← forall₂_and]
      exact forall₂_congr fun p hp => pairOf?_toJson_iff (hes p hp).1 (hes p hp).2
    rw [pairsOf?, mapM_map_eq_some_iff, hitems]
    simp only [Nat.add_right_cancel_iff, exists_eq_left', List.forall_mem_map]

/-! ### The kinds of expressions -/

/-- An expression comes back if it comes back from the record in its tag. -/
theorem comesBack_of_record {tag : String} {index : Nat}
    (hindex : kinds.findIdx? (· == tag) = some index) {data : List (String × Json)}
    (hjson : e.toJson = tagged tag data)
    (hrecord : ∀ settled room, contentOf? (room + 1) settled index (.ofMembers data) = some e ↔
      e.Sayable ∧ ∀ f ∈ data, f.2.depth ≤ room) : e.ComesBack := by
  intro settled room
  have hread : ofJson? room settled e.toJson =
      Json.tagged? kinds contentOf? room settled (tagged tag data) := by
    rw [hjson]
    cases room <;> rfl
  rw [hread, hjson]
  exact Json.tagged?_eq_some_iff hindex (fun _ _ => rfl) hrecord

section Kinds

@[simp] theorem depth_line (l : Nat) : (Json.ofNat l).depth = 0 := rfl

@[simp] theorem depth_text (s : String) : (Json.text s).depth = 0 := rfl

@[simp] theorem text?_eq_some_iff {s t : String} : (Json.text s).text? = some t ↔ s = t := by
  simp [Json.text, Json.text?]

theorem comesBack_const (v : Literal) (l : Nat) : (const v l).ComesBack := by
  refine comesBack_of_record (show kinds.findIdx? (· == "Constant") = some 0 from rfl) rfl
    fun settled room => ?_
  have hfields : Json.fields? ["value", "lineno"]
      (.ofMembers [("value", v.toJson), ("lineno", .ofNat l)]) =
      some [some v.toJson, some (.ofNat l)] :=
    Json.fields?_record _ [v.toJson, .ofNat l] (by decide) rfl
  have hread : contentOf? (room + 1) settled 0
      (.ofMembers [("value", v.toJson), ("lineno", .ofNat l)]) = some (const v l) ↔
      (v.Sayable ∧ v.toJson.depth ≤ room) ∧ l < UInt64.size := by
    rw [contentOf?, hfields]
    simp [Option.bind_eq_some_iff]
  have hsayable : (const v l).Sayable ↔ v.Sayable ∧ l < UInt64.size := by
    rw [sayable_iff]
    simp [SayableNode, children]
  rw [hread, hsayable, and_right_comm]
  simp

theorem comesBack_name (x : String) (l : Nat) : (name x l).ComesBack := by
  refine comesBack_of_record (show kinds.findIdx? (· == "Name") = some 1 from rfl) rfl
    fun settled room => ?_
  have hfields : Json.fields? ["name", "lineno"]
      (.ofMembers [("name", Json.text x), ("lineno", .ofNat l)]) =
      some [some (Json.text x), some (.ofNat l)] :=
    Json.fields?_record _ [Json.text x, .ofNat l] (by decide) rfl
  rw [contentOf?, hfields, sayable_iff]
  simp [Option.bind_eq_some_iff, SayableNode, children]

theorem fields?_elements (es : List (Expr × Expr)) (l : Nat) :
    Json.fields? ["elements", "lineno"]
      (.ofMembers [("elements", .array (pairsToJson es)), ("lineno", .ofNat l)]) =
      some [some (.array (pairsToJson es)), some (.ofNat l)] :=
  Json.fields?_record _ [.array (pairsToJson es), .ofNat l] (by decide) rfl

theorem comesBack_array (hes : ∀ p ∈ es, p.1.ComesBack ∧ p.2.ComesBack) (l : Nat) :
    (array es l).ComesBack := by
  refine comesBack_of_record (show kinds.findIdx? (· == "Array") = some 2 from rfl) rfl
    fun settled room => ?_
  have hread : contentOf? (room + 1) settled 2
      (.ofMembers [("elements", .array (pairsToJson es)), ("lineno", .ofNat l)]) =
      some (array es l) ↔
        ((∀ p ∈ es, p.1.Sayable ∧ p.2.Sayable) ∧ (Json.array (pairsToJson es)).depth ≤ room) ∧
        l < UInt64.size := by
    rw [contentOf?, fields?_elements]
    simp [Option.bind_eq_some_iff, pairsOf?_toJson_iff hes]
  have hsayable :
      (array es l).Sayable ↔ (∀ p ∈ es, p.1.Sayable ∧ p.2.Sayable) ∧ l < UInt64.size := by
    rw [sayable_iff, children, forall_mem_entries, and_comm]
    rfl
  rw [hread, hsayable, and_right_comm]
  simp

theorem comesBack_filter (he : e.ComesBack) (x : String) (has : ∀ a ∈ as, a.ComesBack) (l : Nat) :
    (filter e x as l).ComesBack := by
  refine comesBack_of_record (show kinds.findIdx? (· == "Filter") = some 3 from rfl) rfl
    fun settled room => ?_
  have hfields : Json.fields? ["node", "name", "arguments", "lineno"] (.ofMembers
      [("node", e.toJson), ("name", Json.text x), ("arguments", .array (listToJson as)),
        ("lineno", .ofNat l)]) =
      some [some e.toJson, some (Json.text x), some (.array (listToJson as)), some (.ofNat l)] :=
    Json.fields?_record _ [e.toJson, Json.text x, .array (listToJson as), .ofNat l] (by decide) rfl
  have hread : contentOf? (room + 1) settled 3 (.ofMembers
      [("node", e.toJson), ("name", Json.text x), ("arguments", .array (listToJson as)),
        ("lineno", .ofNat l)]) =
      some (filter e x as l) ↔ (e.Sayable ∧ e.toJson.depth ≤ room) ∧
        ((∀ a ∈ as, a.Sayable) ∧ (Json.array (listToJson as)).depth ≤ room) ∧ l < UInt64.size := by
    rw [contentOf?, hfields]
    simp [Option.bind_eq_some_iff, he settled room, listOf?_toJson_iff has]
  have hsayable :
      (filter e x as l).Sayable ↔ e.Sayable ∧ (∀ a ∈ as, a.Sayable) ∧ l < UInt64.size := by
    rw [sayable_iff, children, List.forall_mem_cons, and_comm, and_assoc]
    rfl
  simp only [hread, hsayable, List.forall_mem_cons, depth_line, depth_text, Nat.zero_le, true_and]
  constructor
  · rintro ⟨⟨he, hdepth⟩, ⟨has, hargs⟩, hl⟩
    exact ⟨⟨he, has, hl⟩, hdepth, hargs, List.forall_mem_nil _⟩
  · rintro ⟨⟨he, has, hl⟩, hdepth, hargs, -⟩
    exact ⟨⟨he, hdepth⟩, ⟨has, hargs⟩, hl⟩

theorem comesBack_cond {t y n : Expr} (ht : t.ComesBack) (hy : y.ComesBack) (hn : n.ComesBack)
    (l : Nat) : (cond t y n l).ComesBack := by
  refine comesBack_of_record (show kinds.findIdx? (· == "Conditional") = some 4 from rfl) rfl
    fun settled room => ?_
  have hfields : Json.fields? ["test", "then", "otherwise", "lineno"] (.ofMembers
      [("test", t.toJson), ("then", y.toJson), ("otherwise", n.toJson), ("lineno", .ofNat l)]) =
      some [some t.toJson, some y.toJson, some n.toJson, some (.ofNat l)] :=
    Json.fields?_record _ [t.toJson, y.toJson, n.toJson, .ofNat l] (by decide) rfl
  have hread : contentOf? (room + 1) settled 4 (.ofMembers
      [("test", t.toJson), ("then", y.toJson), ("otherwise", n.toJson), ("lineno", .ofNat l)]) =
        some (cond t y n l) ↔
      (t.Sayable ∧ t.toJson.depth ≤ room) ∧ (y.Sayable ∧ y.toJson.depth ≤ room) ∧
      (n.Sayable ∧ n.toJson.depth ≤ room) ∧ l < UInt64.size := by
    rw [contentOf?, hfields]
    simp [Option.bind_eq_some_iff, ht settled room, hy settled room, hn settled room]
  have hsayable : (cond t y n l).Sayable ↔ t.Sayable ∧ y.Sayable ∧ n.Sayable ∧ l < UInt64.size := by
    rw [sayable_iff]
    simp [SayableNode, children, and_comm, and_left_comm]
  simp only [hread, hsayable, List.forall_mem_cons, depth_line, Nat.zero_le, true_and]
  constructor
  · rintro ⟨⟨ht, htest⟩, ⟨hy, hyes⟩, ⟨hn, hno⟩, hl⟩
    exact ⟨⟨ht, hy, hn, hl⟩, htest, hyes, hno, List.forall_mem_nil _⟩
  · rintro ⟨⟨ht, hy, hn, hl⟩, htest, hyes, hno, -⟩
    exact ⟨⟨ht, htest⟩, ⟨hy, hyes⟩, ⟨hn, hno⟩, hl⟩

/-- An operator is read back from its name. -/
theorem exists_place (op : BinOp) (settled : Bool) (room : Nat) :
    ∃ place, (Json.text op.name).plainVariant? BinOp.names settled room = some place ∧
      BinOp.all[place]? = some op := by
  cases op with
  | equal => exact ⟨0, rfl, rfl⟩
  | notEqual => exact ⟨1, rfl, rfl⟩
  | concat => exact ⟨2, rfl, rfl⟩
  | and => exact ⟨3, rfl, rfl⟩
  | or => exact ⟨4, rfl, rfl⟩

theorem comesBack_binary {a b : Expr} (op : BinOp) (ha : a.ComesBack) (hb : b.ComesBack) (l : Nat) :
    (binary op a b l).ComesBack := by
  refine comesBack_of_record (show kinds.findIdx? (· == "Binary") = some 5 from rfl) rfl
    fun settled room => ?_
  have hfields : Json.fields? ["operator", "left", "right", "lineno"] (.ofMembers
      [("operator", Json.text op.name), ("left", a.toJson), ("right", b.toJson),
        ("lineno", .ofNat l)]) =
      some [some (Json.text op.name), some a.toJson, some b.toJson, some (.ofNat l)] :=
    Json.fields?_record _ [Json.text op.name, a.toJson, b.toJson, .ofNat l] (by decide) rfl
  obtain ⟨place, hplace, hop⟩ := exists_place op settled room
  have hread : contentOf? (room + 1) settled 5 (.ofMembers
      [("operator", Json.text op.name), ("left", a.toJson), ("right", b.toJson),
        ("lineno", .ofNat l)]) =
      some (binary op a b l) ↔
        (a.Sayable ∧ a.toJson.depth ≤ room) ∧ (b.Sayable ∧ b.toJson.depth ≤ room) ∧
        l < UInt64.size := by
    rw [contentOf?, hfields]
    simp [Option.bind_eq_some_iff, hplace, hop, ha settled room, hb settled room]
  have hsayable : (binary op a b l).Sayable ↔ a.Sayable ∧ b.Sayable ∧ l < UInt64.size := by
    rw [sayable_iff]
    simp [SayableNode, children, and_comm, and_left_comm]
  simp only [hread, hsayable, List.forall_mem_cons, depth_line, depth_text, Nat.zero_le, true_and]
  constructor
  · rintro ⟨⟨ha, hleft⟩, ⟨hb, hright⟩, hl⟩
    exact ⟨⟨ha, hb, hl⟩, hleft, hright, List.forall_mem_nil _⟩
  · rintro ⟨⟨ha, hb, hl⟩, hleft, hright, -⟩
    exact ⟨⟨ha, hleft⟩, ⟨hb, hright⟩, hl⟩

/-- The arguments of a choice are a record of their own. -/
theorem arrayOf?_toJson_iff (hes : ∀ p ∈ es, p.1.ComesBack ∧ p.2.ComesBack) :
    arrayOf? room settled
      (.ofMembers [("elements", .array (pairsToJson es)), ("lineno", .ofNat l)]) = some (es, l) ↔
      ((∀ p ∈ es, p.1.Sayable ∧ p.2.Sayable) ∧ l < UInt64.size) ∧
        (Json.ofMembers [("elements", .array (pairsToJson es)), ("lineno", .ofNat l)]).depth ≤
          room := by
  rw [Json.depth_ofMembers_le_iff]
  cases room with
  | zero => simp [arrayOf?]
  | succ r =>
    have hread :
        arrayOf? (r + 1) settled
          (.ofMembers [("elements", .array (pairsToJson es)), ("lineno", .ofNat l)]) =
        some (es, l) ↔
          ((∀ p ∈ es, p.1.Sayable ∧ p.2.Sayable) ∧ (Json.array (pairsToJson es)).depth ≤ r) ∧
          l < UInt64.size := by
      rw [arrayOf?, fields?_elements]
      simp [Option.bind_eq_some_iff, pairsOf?_toJson_iff hes]
    rw [hread, and_right_comm]
    simp

theorem comesBack_choice (hes : ∀ p ∈ es, p.1.ComesBack ∧ p.2.ComesBack) (argsLine l : Nat) :
    (choice es argsLine l).ComesBack := by
  obtain ⟨args, hargs⟩ : ∃ args, args =
      Json.ofMembers [("elements", .array (pairsToJson es)), ("lineno", .ofNat argsLine)] :=
    ⟨_, rfl⟩
  have hjson : (choice es argsLine l).toJson =
      tagged "Transchoice" [("arguments", args), ("lineno", .ofNat l)] := hargs ▸ rfl
  refine comesBack_of_record (show kinds.findIdx? (· == "Transchoice") = some 6 from rfl) hjson
    fun settled room => ?_
  have hfields : Json.fields? ["arguments", "lineno"]
      (.ofMembers [("arguments", args), ("lineno", .ofNat l)]) =
      some [some args, some (.ofNat l)] := Json.fields?_record _ [args, .ofNat l] (by decide) rfl
  have hargsRead : arrayOf? room settled args = some (es, argsLine) ↔
      ((∀ p ∈ es, p.1.Sayable ∧ p.2.Sayable) ∧ argsLine < UInt64.size) ∧ args.depth ≤ room :=
    hargs ▸ arrayOf?_toJson_iff hes
  have hread : contentOf? (room + 1) settled 6
      (.ofMembers [("arguments", args), ("lineno", .ofNat l)]) =
      some (choice es argsLine l) ↔
        (((∀ p ∈ es, p.1.Sayable ∧ p.2.Sayable) ∧ argsLine < UInt64.size) ∧ args.depth ≤ room) ∧
        l < UInt64.size := by
    rw [contentOf?, hfields]
    simp [Option.bind_eq_some_iff, hargsRead]
  have hsayable : (choice es argsLine l).Sayable ↔
      ((∀ p ∈ es, p.1.Sayable ∧ p.2.Sayable) ∧ argsLine < UInt64.size) ∧ l < UInt64.size := by
    rw [sayable_iff, children, forall_mem_entries, and_comm, and_assoc]
    rfl
  rw [hread, hsayable, and_right_comm]
  simp

end Kinds

/-- Every expression is read back from its tree just if it can be said in JSON and there is room for
the depth of the tree. -/
theorem comesBack (e : Expr) : e.ComesBack := by
  induction e using children_induction with
  | step e ih =>
    cases e with
    | const v l => exact comesBack_const v l
    | name x l => exact comesBack_name x l
    | array es l => exact comesBack_array (forall_mem_entries.1 ih) l
    | filter e x as l =>
      obtain ⟨he, has⟩ := List.forall_mem_cons.1 ih
      exact comesBack_filter he x has l
    | cond t y n l =>
      simp only [children, List.forall_mem_cons] at ih
      obtain ⟨ht, hy, hn, -⟩ := ih
      exact comesBack_cond ht hy hn l
    | binary op a b l =>
      simp only [children, List.forall_mem_cons] at ih
      obtain ⟨ha, hb, -⟩ := ih
      exact comesBack_binary op ha hb l
    | choice es k l => exact comesBack_choice (forall_mem_entries.1 ih) k l

/-! ### The text of expressions -/

theorem clean_pairsToJson {es : List (Expr × Expr)}
    (h : ∀ p ∈ es, p.1.toJson.Clean ∧ p.2.toJson.Clean) : (Json.array (pairsToJson es)).Clean := by
  refine .array fun j hj => ?_
  rw [pairsToJson_eq] at hj
  obtain ⟨p, hp, rfl⟩ := List.mem_map.1 hj
  exact Json.clean_ofMembers (by simpa using h p hp)

theorem clean_line (l : Nat) : (Json.ofNat l).Clean := .number (Json.isSpelling_toDigits l)

/-- Every expression is written as a tree that its text says. -/
theorem clean_toJson (e : Expr) : e.toJson.Clean := by
  induction e using children_induction with
  | step e ih =>
    cases e with
    | const v l => exact Json.clean_tagged (by simpa using ⟨v.clean_toJson, clean_line l⟩)
    | name x l => exact Json.clean_tagged (by simpa using ⟨.string x, clean_line l⟩)
    | array es l =>
      exact Json.clean_tagged
        (by simpa using ⟨clean_pairsToJson (forall_mem_entries.1 ih), clean_line l⟩)
    | filter e x as l =>
      obtain ⟨he, has⟩ := List.forall_mem_cons.1 ih
      have hargs : (Json.array (listToJson as)).Clean := by
        refine .array fun j hj => ?_
        rw [listToJson_eq] at hj
        obtain ⟨a, ha, rfl⟩ := List.mem_map.1 hj
        exact has a ha
      exact Json.clean_tagged (by simpa using ⟨he, .string x, hargs, clean_line l⟩)
    | cond t y n l =>
      simp only [children, List.forall_mem_cons] at ih
      exact Json.clean_tagged (by simpa using ⟨ih.1, ih.2.1, ih.2.2.1, clean_line l⟩)
    | binary op a b l =>
      simp only [children, List.forall_mem_cons] at ih
      exact Json.clean_tagged (by simpa using ⟨.string _, ih.1, ih.2.1, clean_line l⟩)
    | choice es k l =>
      have hargs :
          (Json.ofMembers [("elements", .array (pairsToJson es)), ("lineno", .ofNat k)]).Clean :=
        Json.clean_ofMembers
          (by simpa using ⟨clean_pairsToJson (forall_mem_entries.1 ih), clean_line k⟩)
      exact Json.clean_tagged (by simpa using ⟨hargs, clean_line l⟩)

/-- An expression is read back from its compact text just if it can be said in JSON and its tree
nests no deeper than JSON is read. -/
theorem parseJson_compress_iff (e : Expr) :
    parseJson e.toJson.compress = some e ↔ e.Sayable ∧ e.toJson.depth ≤ Json.nesting := by
  rw [parseJson, Json.parse_compress e.clean_toJson]
  exact e.comesBack false Json.nesting

end Expr

namespace Value

/-! ### Values -/

variable {es fs : List (String × Value)} {v : Value} {room : Nat}

theorem entriesToJson_eq (es : List (String × Value)) :
    entriesToJson es = es.map fun e => (some e.1, e.2.toJson) := by
  induction es with
  | nil => rfl
  | cons e es ih => rw [entriesToJson, ih, List.map_cons]

theorem entriesOf?_cons {k : String} {j : Json} {js : List (Option String × Json)} :
    entriesOf? ((some k, j) :: js) =
      (ofJson? j).bind fun v => (entriesOf? js).map fun fs => (k, v) :: fs := by
  cases hvalue : ofJson? j <;> cases hentries : entriesOf? js <;>
    simp [entriesOf?, hvalue, hentries]

theorem keys_entriesOf?_toJson (h : entriesOf? (entriesToJson es) = some fs) :
    Assoc.keys fs = Assoc.keys es := by
  induction es generalizing fs with
  | nil => cases h; rfl
  | cons e es ih =>
    simp only [entriesToJson, entriesOf?_cons, Option.bind_eq_some_iff, Option.map_eq_some_iff] at h
    obtain ⟨v, -, fs, hfs, rfl⟩ := h
    exact congrArg (e.1 :: ·) (ih hfs)

theorem entriesOf?_toJson_iff :
    entriesOf? (entriesToJson es) = some es ↔ ∀ e ∈ es, ofJson? e.2.toJson = some e.2 := by
  induction es with
  | nil => simp [entriesToJson, entriesOf?]
  | cons e es ih =>
    obtain ⟨k, v⟩ := e
    rw [entriesToJson, entriesOf?_cons, List.forall_mem_cons, ← ih]
    simp only [Option.bind_eq_some_iff, Option.map_eq_some_iff, List.cons.injEq,
      Prod.mk.injEq, true_and]
    constructor
    · rintro ⟨v, hv, fs, hfs, rfl, rfl⟩
      exact ⟨hv, hfs⟩
    · rintro ⟨hv, hes⟩
      exact ⟨v, hv, es, hes, rfl, rfl⟩

theorem ofJson?_toJson_map_iff :
    ofJson? (map es).toJson = some (map es) ↔
      (Assoc.keys es).Nodup ∧ ∀ e ∈ es, ofJson? e.2.toJson = some e.2 := by
  rw [toJson, ofJson?, Option.map_eq_some_iff, ← entriesOf?_toJson_iff]
  constructor
  · rintro ⟨fs, hfs, hmap⟩
    have hself : Assoc.ofList fs = es := by injection hmap
    -- What was written has no key twice, and what was read has the same keys.
    have hnodup : (Assoc.keys es).Nodup := hself ▸ Assoc.nodup_ofList fs
    have hsame : fs = es := by
      rw [← hself, Assoc.ofList_eq_self (keys_entriesOf?_toJson hfs ▸ hnodup)]
    exact ⟨hnodup, hsame ▸ hfs⟩
  · rintro ⟨hnodup, hes⟩
    exact ⟨es, hes, congrArg map (Assoc.ofList_eq_self hnodup)⟩

/-- A value is read back from its tree just if no map has a key twice and its numbers are finite. -/
theorem ofJson?_toJson_iff (v : Value) :
    ofJson? v.toJson = some v ↔ v.WellFormed ∧ ∀ x ∈ v.numbers, x.isFinite = true := by
  induction v using entries_induction with
  | scalar v hscalar =>
    cases v with
    | number x =>
      have hread : ofJson? (number x).toJson = some (number x) ↔ x.isFinite = true := by
        constructor
        · intro h
          by_contra hinfinite
          rw [toJson, Json.ofDouble_eq_null (Bool.eq_false_iff.2 hinfinite)] at h
          cases h
        · intro hfinite
          obtain ⟨spelling, hof, -, hdouble⟩ := Json.exists_ofDouble hfinite
          rw [toJson, hof, ofJson?, hdouble]
          rfl
      simp [hread, WellFormed, numbers]
    | map es => exact absurd rfl (hscalar es)
    | null => simp [toJson, ofJson?, WellFormed, numbers]
    | bool b => simp [toJson, ofJson?, WellFormed, numbers]
    | string s => simp [toJson, Json.text, ofJson?, WellFormed, numbers]
  | map es ih =>
    rw [ofJson?_toJson_map_iff, wellFormed_map_iff, numbers, and_assoc, forall₂_congr ih]
    simp only [mem_numbersOfEntries]
    refine and_congr_right fun _ => ⟨fun h => ⟨fun e he => (h e he).1, ?_⟩,
      fun h e he => ⟨h.1 e he, fun x hx => h.2 x ⟨e, he, hx⟩⟩⟩
    rintro x ⟨e, he, hx⟩
    exact (h e he).2 x hx

theorem areSoundMembers_iff {members : List (Option String × Json)} :
    Json.areSoundMembers room members = true ↔
      ∀ e ∈ members, e.1.isSome = true ∧ e.2.isSound room = true := by
  induction members with
  | nil => simp [Json.areSoundMembers]
  | cons e members ih =>
    rw [Json.areSoundMembers, Bool.and_eq_true, Bool.and_eq_true, ih, List.forall_mem_cons]

/-- The tree of a value is sound just if there is room for its depth. -/
theorem isSound_toJson_iff (v : Value) : v.toJson.isSound room = true ↔ v.toJson.depth ≤ room := by
  induction v using entries_induction generalizing room with
  | scalar v hscalar =>
    cases v with
    | number x =>
      cases hfinite : x.isFinite with
      | false => simp [toJson, Json.ofDouble_eq_null hfinite, Json.isSound]
      | true =>
        obtain ⟨spelling, hof, -, hdouble⟩ := Json.exists_ofDouble hfinite
        simp [toJson, hof, Json.isSound, hdouble]
    | map es => exact absurd rfl (hscalar es)
    | null => simp [toJson, Json.isSound]
    | bool b => simp [toJson, Json.isSound]
    | string s => simp [toJson, Json.text, Json.isSound]
  | map es ih =>
    rw [toJson, Json.isSound, Json.depth, Bool.and_eq_true, decide_eq_true_eq, areSoundMembers_iff]
    cases room with
    | zero => simp
    | succ r =>
      rw [Nat.add_le_add_iff_right, Json.depthOfMembers_le_iff, entriesToJson_eq,
        List.forall_mem_map, List.forall_mem_map]
      simp only [Nat.succ_pos, Option.isSome_some, true_and, Nat.add_sub_cancel]
      exact forall₂_congr fun e he => ih e he

/-- Every value is written as a tree that its text says. -/
theorem clean_toJson (v : Value) : v.toJson.Clean := by
  induction v using entries_induction with
  | scalar v hscalar =>
    cases v with
    | null => exact .null
    | bool b => exact .bool b
    | number x => exact Json.clean_ofDouble x
    | string s => exact .string s
    | map es => exact absurd rfl (hscalar es)
  | map es ih =>
    rw [toJson, entriesToJson_eq]
    refine .object (fun m hm => ?_) fun m hm => ?_
    · obtain ⟨e, -, rfl⟩ := List.mem_map.1 hm
      rfl
    · obtain ⟨e, he, rfl⟩ := List.mem_map.1 hm
      exact ih e he

/-- A value is read back from its compact text just if no map has a key twice, its numbers are
finite and its tree nests no deeper than JSON is read. -/
theorem parseJson_compress_iff (v : Value) :
    parseJson v.toJson.compress = some v ↔
      (v.WellFormed ∧ ∀ x ∈ v.numbers, x.isFinite = true) ∧ v.toJson.depth ≤ Json.nesting := by
  rw [parseJson, Json.parse_compress v.clean_toJson]
  simp only [Option.ite_none_right_eq_some, isSound_toJson_iff, ofJson?_toJson_iff]
  exact and_comm

end Value

/-! ### Templates -/

namespace Segment

/-- Whether JSON can say a segment. -/
def Sayable : Segment → Prop
  | .text _ line => line < UInt64.size
  | .print e line => e.Sayable ∧ line < UInt64.size

theorem ofJson?_toJson_iff (g : Segment) (settled : Bool) (room : Nat) :
    ofJson? room settled g.toJson = some g ↔ g.Sayable ∧ g.toJson.depth ≤ room := by
  cases g with
  | text data line =>
    refine Json.tagged?_eq_some_iff (show kinds.findIdx? (· == "Text") = some 0 from rfl)
      (fun _ _ => rfl) fun settled room => ?_
    have hfields : Json.fields? ["data", "lineno"]
        (.ofMembers [("data", Json.text data), ("lineno", .ofNat line)]) =
        some [some (Json.text data), some (.ofNat line)] :=
      Json.fields?_record _ [Json.text data, .ofNat line] (by decide) rfl
    rw [contentOf?, hfields]
    simp [Option.bind_eq_some_iff, Sayable]
  | print e line =>
    refine Json.tagged?_eq_some_iff (show kinds.findIdx? (· == "Print") = some 1 from rfl)
      (fun _ _ => rfl) fun settled room => ?_
    have hfields :
        Json.fields? ["expr", "lineno"] (.ofMembers [("expr", e.toJson), ("lineno", .ofNat line)]) =
        some [some e.toJson, some (.ofNat line)] :=
      Json.fields?_record _ [e.toJson, .ofNat line] (by decide) rfl
    have hread : contentOf? (room + 1) settled 1
        (.ofMembers [("expr", e.toJson), ("lineno", .ofNat line)]) =
        some (.print e line) ↔ (e.Sayable ∧ e.toJson.depth ≤ room) ∧ line < UInt64.size := by
      rw [contentOf?, hfields]
      simp [Option.bind_eq_some_iff, e.comesBack settled room]
    rw [hread, and_right_comm]
    simp [Sayable]

theorem clean_toJson (g : Segment) : g.toJson.Clean := by
  cases g with
  | text data line => exact Json.clean_tagged (by simpa using ⟨.string data, Expr.clean_line line⟩)
  | print e line => exact Json.clean_tagged (by simpa using ⟨e.clean_toJson, Expr.clean_line line⟩)

end Segment

namespace Template

variable {room : Nat}

theorem segmentsOf?_toJson_iff {body : List Segment} :
    segmentsOf? room (.array (body.map Segment.toJson)) = some body ↔
      (∀ g ∈ body, g.Sayable) ∧ (Json.array (body.map Segment.toJson)).depth ≤ room := by
  rw [Json.depth_array_le_iff]
  cases room with
  | zero => simp [segmentsOf?]
  | succ r =>
    rw [segmentsOf?, Expr.mapM_map_eq_some_iff]
    simp only [Segment.ofJson?_toJson_iff, Nat.add_right_cancel_iff, exists_eq_left',
      List.forall_mem_map, forall₂_and]

/-- A template is read back from its tree just if its segments can be said in JSON and there is room
for the depth of the tree. -/
theorem ofJson?_toJson_iff (t : Template) :
    ofJson? room t.toJson = some t ↔ (∀ g ∈ t.body, g.Sayable) ∧ t.toJson.depth ≤ room := by
  obtain ⟨name, body⟩ := t
  have hfields : Json.fields? ["name", "body"] (toJson ⟨name, body⟩) =
      some [some (Json.text name), some (.array (body.map Segment.toJson))] :=
    Json.fields?_record _ [Json.text name, .array (body.map Segment.toJson)] (by decide) rfl
  have hdepth : (toJson ⟨name, body⟩).depth ≤ room ↔
      ∃ r, room = r + 1 ∧ (Json.array (body.map Segment.toJson)).depth ≤ r := by
    rw [toJson, Json.depth_ofMembers_le_iff]
    simp only [List.forall_mem_cons, Expr.depth_text, Nat.zero_le, true_and, List.not_mem_nil,
      false_implies, implies_true, and_true]
  rw [hdepth]
  cases room with
  | zero => simp [ofJson?]
  | succ r =>
    rw [ofJson?, hfields]
    simp [Option.bind_eq_some_iff, segmentsOf?_toJson_iff]

/-- A template is read back from its compact text just if its segments can be said in JSON and its
tree nests no deeper than JSON is read. -/
theorem parseJson_compress_iff (t : Template) :
    parseJson t.toJson.compress = some t ↔
      (∀ g ∈ t.body, g.Sayable) ∧ t.toJson.depth ≤ Json.nesting := by
  have hbody : (Json.array (t.body.map Segment.toJson)).Clean := by
    refine .array fun j hj => ?_
    obtain ⟨g, -, rfl⟩ := List.mem_map.1 hj
    exact g.clean_toJson
  have hclean : t.toJson.Clean := Json.clean_ofMembers (by simpa using ⟨.string t.name, hbody⟩)
  rw [parseJson, Json.parse_compress hclean]
  show ofJson? Json.nesting t.toJson = some t ↔ _
  exact t.ofJson?_toJson_iff

end Template

/-! ### Both forms -/

/-- Expressions and values come back from their compact JSON text as they were, just if their
numbers are finite and the text nests no deeper than JSON is read; the lines of an expression have
to fit in a word, and no map in a value can have a key twice. -/
theorem Json.forms_read_back :
    (∀ e : Expr, Expr.parseJson e.toJson.compress = some e ↔ e.Sayable ∧ e.toJson.depth ≤ nesting) ∧
      ∀ v : Value, Value.parseJson v.toJson.compress = some v ↔
        (v.WellFormed ∧ ∀ x ∈ v.numbers, x.isFinite = true) ∧ v.toJson.depth ≤ nesting :=
  ⟨Expr.parseJson_compress_iff, Value.parseJson_compress_iff⟩

/-- What is not finite comes back as null. -/
example : Value.parseJson (Value.map [("n", .number .zero), ("m", .number .nan)]).toJson.compress =
    some (.map [("n", .number .zero), ("m", .null)]) := by
  decide +kernel

end Phrasebook

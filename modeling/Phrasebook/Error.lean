import Phrasebook.Expr.Token

/-!
# Errors

What can go wrong while a template is parsed, compiled or rendered, as causes; `Error.message` puts
them into words.
-/

namespace Phrasebook

/-- What was wanted where something else stands. -/
inductive Wanted where
  | punct (c : Char)
  | identifier
  | expression
  | key
  | keyForm
deriving DecidableEq, Repr

def Wanted.message : Wanted → String
  | .punct c => "Missing expected " ++ .singleton c
  | .identifier => "Expected identifier"
  | .expression => "Unexpected end of expression"
  | .key => "Expected hash key"
  | .keyForm =>
    "A hash key must be a quoted string, a number, a name, or an expression enclosed in parentheses"

inductive ParseCause where
  | blank
  | lexical (fault : LexFault) (column : Nat)
  | missing (wanted : Wanted) (found : Option String)
  | keyword (word : Keyword)
  | token (text : String)
  | trailing (text : String) (column : Nat)
  | unclosedTag
  | tooDeep
deriving DecidableEq, Repr

def inQuotes (s : String) : String := "\x22" ++ s ++ "\x22"

def ParseCause.message (cause : ParseCause) (input : String) : String :=
  let inInput := " in expression [" ++ input ++ "]"
  match cause with
  | .blank => "Blank expressions are not allowed"
  | .lexical fault column => fault.message column input
  | .missing wanted found =>
    wanted.message ++ ", found " ++ (found.map inQuotes).getD "end of input" ++ inInput
  | .keyword word => "Unexpected keyword " ++ inQuotes word.text ++ inInput
  | .token text => "Unexpected token " ++ inQuotes text ++ inInput
  | .trailing text column =>
    "Unexpected token " ++ inQuotes text ++ " at column " ++ toString column ++ inInput
  | .unclosedTag => "Unclosed " ++ inQuotes "\x7b\x7b" ++ " tag"
  | .tooDeep => "Nesting is too deep" ++ inInput

inductive ArgumentCause where
  | notParameters (shown : String)
  | notString (shown : String)
  | choiceIncomplete
  | custom (complaint : String)
deriving DecidableEq, Repr

def ArgumentCause.message : ArgumentCause → String
  | .notParameters shown => "expected a hash of parameters, got " ++ inQuotes shown
  | .notString shown => "expected a string, got " ++ inQuotes shown
  | .choiceIncomplete => "transchoice_with_default requires a message and a default"
  | .custom complaint => complaint

/-- What went wrong, and the template line it is reported on. -/
inductive Error where
  /-- A `desc` filter that is not applied to the result of a `trans` filter. -/
  | missingTrans (line : Nat)
  /-- A `desc` filter without a default message. -/
  | missingDefault (line : Nat)
  | parse (cause : ParseCause) (input : String) (line : Nat)
  | unknownFilter (name : String) (line : Nat)
  | undefinedVariable (name : String) (line : Nat)
  | argument (cause : ArgumentCause) (line : Nat)
  /-- A configuration or catalogue that is not of the required form. -/
  | configuration
  /-- A pass that kept on growing the tree it walks. -/
  | runaway (line : Nat)
deriving DecidableEq, Repr

namespace Error

/-- The template line an error points at, when it has one. -/
def line? : Error → Option Nat
  | .missingTrans l | .missingDefault l | .parse _ _ l | .unknownFilter _ l | .undefinedVariable _ l
  | .argument _ l | .runaway l => some l
  | .configuration => none

def summary : Error → String
  | .missingTrans _ => "The \x22desc\x22 filter must be applied after a \x22trans\x22 filter"
  | .missingDefault _ => "The \x22desc\x22 filter requires a default message argument"
  | .parse cause input _ => cause.message input
  | .unknownFilter name _ => "Unknown filter " ++ inQuotes name
  | .undefinedVariable name _ => "Variable " ++ inQuotes name ++ " does not exist"
  | .argument cause _ => cause.message
  | .configuration => "Invalid compiler configuration"
  | .runaway _ => "A pass does not come to an end"

def message (e : Error) : String :=
  match e.line? with
  | some l => e.summary ++ " (line " ++ toString l ++ ")"
  | none => e.summary

end Error

/-! ### Outcomes -/

namespace Outcome

variable {ε α β γ : Type}

@[simp] theorem pure_eq (a : α) : (pure a : Except ε α) = .ok a := rfl

@[simp] theorem ok_bind (a : α) (f : α → Except ε β) : (Except.ok a >>= f) = f a := rfl

@[simp] theorem error_bind (e : ε) (f : α → Except ε β) : (Except.error e >>= f) = .error e := rfl

theorem bind_eq_ok {x : Except ε α} {f : α → Except ε β} {b : β} :
    (x >>= f) = .ok b ↔ ∃ a, x = .ok a ∧ f a = .ok b := by
  cases x <;> simp

/-- To map the outcome of two steps is to map that of the second. -/
theorem map_of_bind (x : Except ε α) (f : α → Except ε β) (g : β → γ) :
    (x >>= f).map g = x >>= fun a => (f a).map g := by
  cases x <;> rfl

/-- A mapped result is passed on mapped. -/
theorem bind_of_map (x : Except ε α) (g : α → β) (f : β → Except ε γ) :
    x.map g >>= f = x >>= fun a => f (g a) := by
  cases x <;> rfl

/-- What holds of a result, or of the error in its place. -/
def Meets (P : α → Prop) (E : ε → Prop) : Except ε α → Prop
  | .ok a => P a
  | .error e => E e

variable {P P' : α → Prop} {Q : β → Prop} {E E' : ε → Prop}

theorem Meets.bind {x : Except ε α} {f : α → Except ε β} (hx : Meets P E x)
    (hf : ∀ a, P a → Meets Q E (f a)) : Meets Q E (x >>= f) := by
  cases x with
  | ok a => exact hf a hx
  | error e => exact hx

theorem Meets.mono {x : Except ε α} (hx : Meets P E x) (hP : ∀ a, P a → P' a)
    (hE : ∀ e, E e → E' e) : Meets P' E' x := by
  cases x with
  | ok a => exact hP a hx
  | error e => exact hE e hx

end Outcome

/-- Equality of outcomes. -/
instance decidableEqOutcome {ε α : Type} [DecidableEq ε] [DecidableEq α] : DecidableEq (Except ε α)
  | .ok _, .ok _ => decidable_of_iff _ ⟨congrArg Except.ok, Except.ok.inj⟩
  | .error _, .error _ => decidable_of_iff _ ⟨congrArg Except.error, Except.error.inj⟩
  | .ok _, .error _ => isFalse nofun
  | .error _, .ok _ => isFalse nofun

end Phrasebook

import Phrasebook.Double.Text

/-!
# Tokens

What the text of an expression is cut into.  A lexeme is scanned by taking the longest run of
characters that fits, so that the characters it was made of followed by the rest are the text it was
scanned from.

* `Lexeme.scan` : the lexeme at the head of a text, its characters and the rest;
* `Token.scan` : the tokens of a text, each with its span in bytes and its line.

A lexical fault is a token of its own, and the last one.
-/

namespace Phrasebook

/-! ### Character classes -/

/-- Characters between tokens: everything up to the space, and the no-break space. -/
def isBlank (c : Char) : Bool := c ≤ ' ' || c == '\u00a0'

/-- Characters that start an identifier: ASCII letters and the underscore. -/
def isIdentStart (c : Char) : Bool := c.isAlpha || c == '_'

/-- Characters that continue an identifier: those that start one, and ASCII digits. -/
def isIdentPart (c : Char) : Bool := isIdentStart c || c.isDigit

/-- Characters that are tokens by themselves. -/
def isPunctuation (c : Char) : Bool := "()[]\x7b\x7d,:.".toList.contains c

def isQuote (c : Char) : Bool := c == '\x27' || c == '\x22'

/-! ### Positions -/

def byteLength (cs : List Char) : Nat := cs.foldr (fun c n => c.utf8Size + n) 0

def lineEnds (cs : List Char) : Nat := cs.count '\n'

@[simp] theorem byteLength_nil : byteLength [] = 0 := rfl

@[simp] theorem byteLength_cons (c : Char) (cs : List Char) : byteLength (c :: cs) =
    c.utf8Size + byteLength cs := rfl

@[simp] theorem byteLength_append (as bs : List Char) :
    byteLength (as ++ bs) = byteLength as + byteLength bs := by
  induction as with
  | nil => simp
  | cons a as ih => simp [ih, Nat.add_assoc]

@[simp] theorem lineEnds_nil : lineEnds [] = 0 := rfl

@[simp] theorem lineEnds_cons (c : Char) (cs : List Char) :
    lineEnds (c :: cs) = lineEnds cs + if c == '\n' then 1 else 0 := List.count_cons

@[simp] theorem lineEnds_append (as bs : List Char) :
    lineEnds (as ++ bs) = lineEnds as + lineEnds bs :=
  List.count_append

/-! ### Lexemes -/

inductive Keyword where
  | true
  | false
  | null
  | none
  | and
  | or
deriving DecidableEq, Repr

namespace Keyword

def text : Keyword → String
  | .true => "true"
  | .false => "false"
  | .null => "null"
  | .none => "none"
  | .and => "and"
  | .or => "or"

def ofText? (s : String) : Option Keyword :=
  [Keyword.true, .false, .null, .none, .and, .or].find? fun k => k.text == s

end Keyword

/-- A symbol that joins expressions. -/
inductive Operator where
  | bar
  | tilde
  | question
  | equal
  | notEqual
deriving DecidableEq, Repr

def Operator.text : Operator → String
  | .bar => "|"
  | .tilde => "~"
  | .question => "?"
  | .equal => "=="
  | .notEqual => "!="

/-- What keeps a text from being cut into tokens. -/
inductive LexFault where
  | unexpected (c : Char)
  | unterminated
deriving DecidableEq, Repr

/-- The wording of a lexical fault at the byte `column` of `input`. -/
def LexFault.message (fault : LexFault) (column : Nat) (input : String) : String :=
  let what := match fault with
    | .unexpected c => "Unexpected character [" ++ String.singleton c ++ "]"
    | .unterminated => "Unterminated quote"
  "Lexer Error: " ++ what ++ " at column " ++ toString column ++ " in expression [" ++ input ++ "]"

/-- A lexeme: the kind of a token with what it says. -/
inductive Lexeme where
  | punct (c : Char)
  | ident (name : String)
  | keyword (word : Keyword)
  | string (value : String)
  | operator (op : Operator)
  | number (spelling : String) (value : Double)
  | fault (fault : LexFault)
deriving DecidableEq, Repr

namespace Lexeme

def isFault : Lexeme → Bool
  | .fault _ => true
  | _ => false

/-- The text of a lexeme: its spelling, and for a string its value. -/
def text : Lexeme → String
  | .punct c => .singleton c
  | .ident name => name
  | .keyword word => word.text
  | .string value => value
  | .operator op => op.text
  | .number spelling _ => spelling
  | .fault _ => ""

/-- A lexeme together with the characters it was made of and those that follow. -/
structure Scan where
  lexeme : Lexeme
  raw : List Char
  rest : List Char
deriving DecidableEq, Repr

/-- An identifier or a reserved word, of which `c` is the first character. -/
def scanWord (c : Char) (cs : List Char) : Scan :=
  let raw := c :: cs.takeWhile isIdentPart
  let word := String.ofList raw
  let lexeme := match Keyword.ofText? word with
    | some k => .keyword k
    | none => .ident word
  ⟨lexeme, raw, cs.dropWhile isIdentPart⟩

/-- The fraction of a number: a point and at least one digit, or nothing. -/
def splitPoint : List Char → List Char × List Char
  | '.' :: d :: cs =>
    if d.isDigit then (d :: cs.takeWhile Char.isDigit, cs.dropWhile Char.isDigit)
      else ([], '.' :: d :: cs)
  | cs => ([], cs)

def scanNumber (c : Char) (cs : List Char) : Scan :=
  let whole := c :: cs.takeWhile Char.isDigit
  let (fraction, rest) := splitPoint (cs.dropWhile Char.isDigit)
  let raw := if fraction.isEmpty then whole else whole ++ '.' :: fraction
  ⟨.number (.ofList raw) ((Decimal.ofDigits whole fraction 0).toDouble false), raw, rest⟩

/-- What a character stands for after a backslash. -/
def unescape (c : Char) : Char :=
  if c = 'n' then '\n' else if c = 't' then '\t' else if c = 'r' then '\r' else c

/-- The inside of a quoted string: its value up to the closing mark, or the characters read before
it broke off. -/
inductive Quoted where
  | closed (value raw rest : List Char)
  | broken (raw : List Char)
deriving DecidableEq, Repr

def Quoted.push (c : Char) (spelling : List Char) : Quoted → Quoted
  | .closed value raw rest => .closed (c :: value) (spelling ++ raw) rest
  | .broken raw => .broken (spelling ++ raw)

/-- Reads up to the closing mark `q`.  A backslash takes the character after it, other than the null
character. -/
def scanQuoted (q : Char) : List Char → Quoted
  | [] => .broken []
  | ['\x5c'] => .broken ['\x5c']
  | '\x5c' :: c :: cs =>
    if c = '\x00' then .broken ['\x5c'] else (scanQuoted q cs).push (unescape c) ['\x5c', c]
  | c :: cs => if c = q then .closed [] [c] cs else (scanQuoted q cs).push c [c]

/-- A string that opens with the mark `q`. -/
def scanString (q : Char) (cs : List Char) : Scan :=
  match scanQuoted q cs with
  | .closed value raw rest => ⟨.string (.ofList value), q :: raw, rest⟩
  | .broken raw => ⟨.fault .unterminated, q :: raw, []⟩

/-- A symbol, or a character that fits nothing. -/
def scanSymbol (c : Char) (cs : List Char) : Scan :=
  match c, cs with
  | '|', cs => ⟨.operator .bar, [c], cs⟩
  | '~', cs => ⟨.operator .tilde, [c], cs⟩
  | '?', cs => ⟨.operator .question, [c], cs⟩
  | '=', '=' :: cs => ⟨.operator .equal, [c, '='], cs⟩
  | '!', '=' :: cs => ⟨.operator .notEqual, [c, '='], cs⟩
  | c, cs => ⟨.fault (.unexpected c), [c], cs⟩

def scan (c : Char) (cs : List Char) : Scan :=
  if isIdentStart c then scanWord c cs
  else if c.isDigit then scanNumber c cs
  else if isPunctuation c then ⟨.punct c, [c], cs⟩
  else if isQuote c then scanString c cs
  else scanSymbol c cs

/-! ### What a scan consumes -/

theorem length_dropWhile_le {α : Type} (p : α → Bool) (l : List α) :
    (l.dropWhile p).length ≤ l.length :=
  (List.dropWhile_sublist p).length_le

theorem length_splitPoint_le (cs : List Char) : (splitPoint cs).2.length ≤ cs.length := by
  unfold splitPoint
  split
  · next d cs =>
    split
    · have := length_dropWhile_le Char.isDigit cs
      simp only [List.length_cons]
      omega
    · exact Nat.le_refl _
  · exact Nat.le_refl _

theorem length_scanQuoted_lt {q : Char} {cs value raw rest : List Char} :
    scanQuoted q cs = .closed value raw rest → rest.length < cs.length := by
  fun_induction scanQuoted q cs generalizing value raw rest with
  | case1 => intro h; cases h
  | case2 => intro h; cases h
  | case3 => intro h; cases h
  | case4 c cs _ ih =>
    intro h
    cases hs : scanQuoted q cs with
    | broken r => rw [hs] at h; cases h
    | closed v r t =>
      rw [hs] at h
      cases h
      have := ih hs
      simp only [List.length_cons]
      omega
  | case5 => intro h; cases h; simp
  | case6 c cs _ _ _ ih =>
    intro h
    cases hs : scanQuoted q cs with
    | broken r => rw [hs] at h; cases h
    | closed v r t =>
      rw [hs] at h
      cases h
      have := ih hs
      simp only [List.length_cons]
      omega

/-- A scan leaves no more than what follows its first character. -/
theorem length_rest_scan_le (c : Char) (cs : List Char) : (scan c cs).rest.length ≤ cs.length := by
  unfold scan
  split
  · exact length_dropWhile_le _ _
  split
  · exact Nat.le_trans (length_splitPoint_le _) (length_dropWhile_le _ _)
  split
  · exact Nat.le_refl _
  split
  · unfold scanString
    split
    · next h => exact Nat.le_of_lt (length_scanQuoted_lt h)
    · exact Nat.zero_le _
  · unfold scanSymbol
    split <;> simp

end Lexeme

/-! ### Tokens -/

/-- A lexeme with its span in bytes and the line it starts on. -/
structure Token where
  lexeme : Lexeme
  start : Nat
  stop : Nat
  line : Nat
deriving DecidableEq, Repr

namespace Token

/-- The tokens of `cs`, which starts at the byte `pos` on the line `line`. -/
def scan (line pos : Nat) (cs : List Char) : List Token :=
  let blanks := cs.takeWhile isBlank
  match _h : cs.dropWhile isBlank with
  | [] => []
  | c :: rest =>
    let line := line + lineEnds blanks
    let start := pos + byteLength blanks
    let found := Lexeme.scan c rest
    let stop := start + byteLength found.raw
    let token := ⟨found.lexeme, start, stop, line⟩
    if found.lexeme.isFault then [token]
    else token :: scan (line + lineEnds found.raw) stop found.rest
termination_by cs.length
decreasing_by
  have h₁ := Lexeme.length_rest_scan_le c rest
  have h₂ := Lexeme.length_dropWhile_le isBlank cs
  rw [_h, List.length_cons] at h₂
  exact Nat.lt_of_le_of_lt h₁ h₂

/-- The tokens of a text whose first character stands on `line`. -/
def ofText (input : String) (line : Nat) : List Token := scan line 0 input.toList

end Token

end Phrasebook

import Formulary.Diagnostic
import Formulary.Real.Reading
import Formulary.Text.Alphanumeric
import Formulary.Token

/-! # Lexemes

A lexeme is the stretch of a text that one token, or one refused character, takes up. Which token it
makes depends on its characters alone and not on its place, so everything here counts bytes from the
lexeme's own start. `Lexeme.chars_append_rest_read` says that a lexeme and what is left are the whole
text. -/

namespace Formulary

namespace Lexeme

/-- What can be wrong with the characters of a formula. -/
inductive Fault where
  | unexpected (c : Char)
  | unterminatedText
  | unterminatedDate
  | unterminatedName
  | unknownEscape (c : Char)
  | shortEscape
  | badEscape (code : Nat)
  | outOfRange (digits : String)
deriving DecidableEq, Repr

namespace Fault

def code : Fault → Code
  | unexpected _ => .unexpectedCharacter
  | unterminatedText => .unterminatedString
  | unterminatedDate => .unterminatedDate
  | unterminatedName => .unterminatedIdentifier
  | unknownEscape _ | shortEscape | badEscape _ => .invalidEscape
  | outOfRange _ => .invalidNumber

def message : Fault → String
  | unexpected c => s!"no viable alternative at character '{c}'"
  | unterminatedText => "unterminated text literal"
  | unterminatedDate => "unterminated date literal"
  | unterminatedName => "unterminated bracketed identifier"
  | unknownEscape c => s!"invalid escape sequence: \\{c}"
  | shortEscape => "\\u must be followed by four hex digits"
  | badEscape n =>
      let ds := String.ofList (Nat.toDigits 16 n)
      "\\u" ++ "".pushn '0' (4 - ds.length) ++ ds ++ " is not a valid character"
  | outOfRange ds => s!"number literal '{ds}' is out of range"

/-- The remark beside the span, for the faults that have one. -/
def label : Fault → Option String
  | unexpected _ => some "unexpected character here"
  | unterminatedText => some "text starts here"
  | _ => none

def help : Fault → Option String
  | unexpected c => if c = '"' then Code.unexpectedCharacter.suggestion else none
  | _ => none

end Fault

/-- A fault and the bytes of the lexeme that it is about. -/
structure Problem where
  start : Nat
  stop : Nat
  fault : Fault
deriving DecidableEq, Repr

/-- The diagnostic for a problem in a lexeme that starts at byte `offset`. -/
def Problem.diagnostic (p : Problem) (offset : Nat) : Diagnostic :=
  let span := Span.ofNat (offset + p.start) (offset + p.stop)
  { Diagnostic.error .lexing p.fault.code span p.fault.message with
    labels := (p.fault.label.map fun message ↦ ⟨span, message⟩).toList
    help := p.fault.help }

end Lexeme

/-- A lexeme's characters, the token that they make, if any, the problems in it, and what is left of
the text. -/
structure Lexeme where
  kind : Option Token.Kind
  chars : List Char
  problems : List Lexeme.Problem
  rest : List Char
deriving DecidableEq, Repr

namespace Lexeme

/-- A lexeme without problems. -/
def clean (kind : Token.Kind) (chars rest : List Char) : Lexeme := ⟨some kind, chars, [], rest⟩

/-! ## Quoted texts -/

/-- An escape after its backslash. -/
structure Escape where
  char : Option Char
  chars : List Char
  fault : Option Fault
  rest : List Char

def isHexDigit (c : Char) : Bool :=
  c.isDigit || ('a' ≤ c && c ≤ 'f') || ('A' ≤ c && c ≤ 'F')

def hexValue (c : Char) : Nat :=
  if c.isDigit then c.toNat - '0'.toNat
  else if 'a' ≤ c then c.toNat - 'a'.toNat + 10
  else c.toNat - 'A'.toNat + 10

/-- The four digits of a numeric escape; with fewer the digits are dropped. -/
def numericEscape (cs : List Char) : Escape :=
  let ds := (cs.takeWhile isHexDigit).take 4
  let rest := cs.drop ds.length
  let code := ds.foldl (fun n d ↦ 16 * n + hexValue d) 0
  if ds.length < 4 then ⟨none, 'u' :: ds, some .shortEscape, rest⟩
  else if code.isValidChar then ⟨some (.ofNat code), 'u' :: ds, none, rest⟩
  else ⟨none, 'u' :: ds, some (.badEscape code), rest⟩

def escape : List Char → Escape
  | [] => ⟨none, [], none, []⟩
  | 'n' :: cs => ⟨some '\n', ['n'], none, cs⟩
  | 'r' :: cs => ⟨some '\r', ['r'], none, cs⟩
  | 't' :: cs => ⟨some '\t', ['t'], none, cs⟩
  | '\\' :: cs => ⟨some '\\', ['\\'], none, cs⟩
  | '"' :: cs => ⟨some '"', ['"'], none, cs⟩
  | '\'' :: cs => ⟨some '\'', ['\''], none, cs⟩
  | 'u' :: cs => numericEscape cs
  | c :: cs => ⟨none, [c], some (.unknownEscape c), cs⟩

theorem chars_append_rest_numericEscape (cs : List Char) :
    (numericEscape cs).chars ++ (numericEscape cs).rest = 'u' :: cs := by
  have h := List.prefix_iff_eq_append.1
    ((List.take_prefix 4 _).trans (List.takeWhile_prefix isHexDigit (l := cs)))
  unfold numericEscape
  simp only
  split
  · exact congrArg ('u' :: ·) h
  · split <;> exact congrArg ('u' :: ·) h

theorem chars_append_rest_escape (cs : List Char) :
    (escape cs).chars ++ (escape cs).rest = cs := by
  unfold escape
  split <;> first | rfl | exact chars_append_rest_numericEscape _

theorem length_rest_escape_le (cs : List Char) : (escape cs).rest.length ≤ cs.length := by
  have := congrArg List.length (chars_append_rest_escape cs)
  simp only [List.length_append] at this
  omega

/-- What follows an opening quote: the characters it stands for, the characters it is written with,
its problems, whether it was closed, and what is left. -/
structure Quotation where
  value : List Char
  chars : List Char
  problems : List Problem
  closed : Bool
  rest : List Char

/-- Reads up to the closing quote; `offset` is the place in the lexeme. -/
def quotation (offset : Nat) : List Char → Quotation
  | [] => ⟨[], [], [], false, []⟩
  | c :: cs =>
      if c = '\'' then ⟨[], [c], [], true, cs⟩
      else if c = '\\' then
        let e := escape cs
        let stop := offset + c.utf8Size + Source.bytes e.chars
        let q := quotation stop e.rest
        { q with
          value := e.char.toList ++ q.value
          chars := c :: e.chars ++ q.chars
          problems := (e.fault.map (Problem.mk offset stop)).toList ++ q.problems }
      else
        let q := quotation (offset + c.utf8Size) cs
        { q with value := c :: q.value, chars := c :: q.chars }
termination_by cs => cs.length
decreasing_by
  · exact Nat.lt_succ_of_le (length_rest_escape_le cs)
  · exact Nat.lt_succ_self cs.length

theorem chars_append_rest_quotation (offset : Nat) (cs : List Char) :
    (quotation offset cs).chars ++ (quotation offset cs).rest = cs := by
  fun_induction quotation offset cs with
  | case1 => rfl
  | case2 => rfl
  | case3 offset cs e _ stop q ih =>
    change '\\' :: e.chars ++ q.chars ++ q.rest = '\\' :: cs
    rw [List.append_assoc, show q.chars ++ q.rest = e.rest from ih]
    exact congrArg ('\\' :: ·) (chars_append_rest_escape cs)
  | case4 offset c cs _ _ q ih => exact congrArg (c :: ·) ih

/-- A text literal after its opening quote. -/
def quoted (cs : List Char) : Lexeme :=
  let q := quotation 1 cs
  let chars := '\'' :: q.chars
  if q.closed then ⟨some (.text (String.ofList q.value)), chars, q.problems, q.rest⟩
  else ⟨some .broken, chars, q.problems ++ [⟨0, Source.bytes chars, .unterminatedText⟩], q.rest⟩

/-! ## Dates and bracketed names -/

/-- Everything up to a closing sign, in which nothing is escaped. -/
def delimited (first close : Char) (kind : String → Token.Kind) (fault : Fault)
    (cs : List Char) : Lexeme :=
  let value := cs.takeWhile (· ≠ close)
  match cs.dropWhile (· ≠ close) with
  | c :: rest => clean (kind (String.ofList value)) (first :: value ++ [c]) rest
  | [] => ⟨some .broken, first :: value, [⟨0, Source.bytes (first :: value), fault⟩], []⟩

/-- A run between double quotes is refused as a whole, with one problem, about its first sign. -/
def doubleQuoted (cs : List Char) : Lexeme :=
  let value := cs.takeWhile (· ≠ '"')
  let rest := cs.dropWhile (· ≠ '"')
  ⟨some .broken, '"' :: value ++ rest.take 1, [⟨0, 1, .unexpected '"'⟩], rest.drop 1⟩

/-! ## Numbers -/

/-- An exponent, with or without a sign, counts only if digits follow. -/
def exponent : List Char → List Char
  | [] => []
  | e :: cs =>
      let sign := (cs.takeWhile fun c ↦ c == '+' || c == '-').take 1
      let ds := (cs.drop sign.length).takeWhile Char.isDigit
      if (e = 'e' ∨ e = 'E') ∧ ds ≠ [] then e :: sign ++ ds else []

/-- A point and the digits after it, unless the number began with a point. -/
def fraction (first : Char) (cs : List Char) : List Char :=
  match cs with
  | '.' :: ds => if first = '.' then [] else '.' :: ds.takeWhile Char.isDigit
  | _ => []

/-- The characters of a number after its first: digits, a fraction, an exponent. -/
def numeral (first : Char) (cs : List Char) : List Char × Bool :=
  let whole := cs.takeWhile Char.isDigit
  let rest := cs.drop whole.length
  let point := fraction first rest
  let power := exponent (rest.drop point.length)
  (whole ++ point ++ power, first == '.' || !point.isEmpty || !power.isEmpty)

/-- A number is a float if it has a point or an exponent, and an integer of 64 bits otherwise. -/
def number (first : Char) (cs : List Char) : Lexeme :=
  let (more, isFloat) := numeral first cs
  let chars := first :: more
  let rest := cs.drop more.length
  if isFloat then
    match (Real.scientific? chars).map Real.Scientific.toFloat with
    | some x => clean (.float x) chars rest
    | none => ⟨some .broken, chars, [⟨0, Source.bytes chars, .outOfRange (.ofList chars)⟩], rest⟩
  else
    let n := Real.digitsValue chars
    if n < twoPow 63 then clean (.integer (.ofNat n)) chars rest
    else ⟨some .broken, chars, [⟨0, Source.bytes chars, .outOfRange (.ofList chars)⟩], rest⟩

theorem isPrefix_fraction (first : Char) (cs : List Char) : fraction first cs <+: cs := by
  unfold fraction
  split
  · split
    · exact List.nil_prefix
    · exact (List.prefix_cons_inj _).2 (List.takeWhile_prefix ..)
  · exact List.nil_prefix

theorem isPrefix_exponent (cs : List Char) : exponent cs <+: cs := by
  unfold exponent
  split
  · exact List.nil_prefix
  · next e cs =>
    simp only
    split
    · have h := List.prefix_iff_eq_append.1
        ((List.take_prefix 1 _).trans
          (List.takeWhile_prefix (fun c ↦ c == '+' || c == '-') (l := cs)))
      refine (List.prefix_cons_inj _).2 ?_
      conv => rhs; rw [← h]
      exact (List.prefix_append_right_inj _).2 (List.takeWhile_prefix ..)
    · exact List.nil_prefix

/-- Puts together a prefix and a prefix of what it leaves. -/
theorem isPrefix_append {as bs cs : List Char} (h₁ : as <+: cs) (h₂ : bs <+: cs.drop as.length) :
    as ++ bs <+: cs := by
  conv => rhs; rw [← List.prefix_iff_eq_append.1 h₁]
  exact (List.prefix_append_right_inj _).2 h₂

theorem isPrefix_numeral (first : Char) (cs : List Char) : (numeral first cs).1 <+: cs := by
  have h₁ : cs.takeWhile Char.isDigit <+: cs := List.takeWhile_prefix ..
  refine isPrefix_append (isPrefix_append h₁ (isPrefix_fraction ..)) ?_
  rw [List.length_append, ← List.drop_drop]
  exact isPrefix_exponent _

@[simp] theorem chars_number (first : Char) (cs : List Char) :
    (number first cs).chars = first :: (numeral first cs).1 := by
  unfold number
  simp only
  split <;> split <;> rfl

@[simp] theorem rest_number (first : Char) (cs : List Char) :
    (number first cs).rest = cs.drop (numeral first cs).1.length := by
  unfold number
  simp only
  split <;> split <;> rfl

theorem chars_append_rest_number (first : Char) (cs : List Char) :
    (number first cs).chars ++ (number first cs).rest = first :: cs := by
  rw [chars_number, rest_number]
  exact congrArg (first :: ·) (List.prefix_iff_eq_append.1 (isPrefix_numeral first cs))

/-! ## Names and signs -/

def isNameStart (c : Char) : Bool := Text.isAlphabetic c || c == '_'

def isNamePart (c : Char) : Bool := Text.isAlphanumeric c || c == '_'

/-- A name, or the keyword that it spells. -/
def word (first : Char) (cs : List Char) : Lexeme :=
  let more := cs.takeWhile isNamePart
  let name := String.ofList (first :: more)
  clean ((Token.Kind.keyword? name).getD (.name name)) (first :: more) (cs.drop more.length)

/-- The operators and brackets of one and two characters, the longer one first. -/
def sign? (first : Char) (cs : List Char) : Option (Token.Kind × List Char) :=
  match first, cs with
  | '*', '*' :: _ => some (.starStar, ['*', '*'])
  | '&', '&' :: _ => some (.andAnd, ['&', '&'])
  | '|', '|' :: _ => some (.orOr, ['|', '|'])
  | '=', '=' :: _ => some (.equalEqual, ['=', '='])
  | '!', '=' :: _ => some (.bangEqual, ['!', '='])
  | '<', '=' :: _ => some (.lessEqual, ['<', '='])
  | '<', '>' :: _ => some (.lessGreater, ['<', '>'])
  | '<', '<' :: _ => some (.lessLess, ['<', '<'])
  | '>', '=' :: _ => some (.greaterEqual, ['>', '='])
  | '>', '>' :: _ => some (.greaterGreater, ['>', '>'])
  | '(', _ => some (.leftParen, ['('])
  | ')', _ => some (.rightParen, [')'])
  | ',', _ => some (.comma, [','])
  | '+', _ => some (.plus, ['+'])
  | '-', _ => some (.minus, ['-'])
  | '/', _ => some (.slash, ['/'])
  | '%', _ => some (.percent, ['%'])
  | '^', _ => some (.caret, ['^'])
  | '~', _ => some (.tilde, ['~'])
  | '?', _ => some (.question, ['?'])
  | ':', _ => some (.colon, [':'])
  | '*', _ => some (.star, ['*'])
  | '&', _ => some (.ampersand, ['&'])
  | '|', _ => some (.pipe, ['|'])
  | '=', _ => some (.equal, ['='])
  | '!', _ => some (.bang, ['!'])
  | '<', _ => some (.less, ['<'])
  | '>', _ => some (.greater, ['>'])
  | _, _ => none

/-- The lexeme at the start of a text that begins with `first`. A character that starts no token is
a lexeme of its own. -/
def read (first : Char) (cs : List Char) : Lexeme :=
  match sign? first cs with
  | some (kind, chars) => clean kind chars (cs.drop (chars.length - 1))
  | none =>
      if first = '\'' then quoted cs
      else if first = '"' then doubleQuoted cs
      else if first = '#' then delimited first '#' .date .unterminatedDate cs
      else if first = '[' then delimited first ']' .bracketed .unterminatedName cs
      else if first.isDigit || (first == '.' && (cs.head?.map Char.isDigit).getD false) then
        number first cs
      else if isNameStart first then word first cs
      else ⟨none, [first], [⟨0, first.utf8Size, .unexpected first⟩], cs⟩

/-! ## Nothing is lost -/

theorem chars_of_sign? {first : Char} {cs chars : List Char} {kind : Token.Kind}
    (h : sign? first cs = some (kind, chars)) :
    chars ++ cs.drop (chars.length - 1) = first :: cs := by
  unfold sign? at h
  split at h <;> first | cases h; rfl | cases h

theorem chars_append_rest_quoted (cs : List Char) :
    (quoted cs).chars ++ (quoted cs).rest = '\'' :: cs := by
  have h := chars_append_rest_quotation 1 cs
  unfold quoted
  simp only
  split <;> exact congrArg ('\'' :: ·) h

theorem chars_append_rest_delimited (first close : Char) (kind : String → Token.Kind)
    (fault : Fault) (cs : List Char) :
    (delimited first close kind fault cs).chars ++ (delimited first close kind fault cs).rest =
      first :: cs := by
  have h := List.takeWhile_append_dropWhile (p := fun c ↦ decide (c ≠ close)) (l := cs)
  unfold delimited
  simp only
  split
  · next hd => rw [hd] at h; simpa [clean] using h
  · next hd => rw [hd] at h; simpa using h

theorem chars_append_rest_doubleQuoted (cs : List Char) :
    (doubleQuoted cs).chars ++ (doubleQuoted cs).rest = '"' :: cs := by
  have h := List.takeWhile_append_dropWhile (p := fun c ↦ decide (c ≠ '"')) (l := cs)
  unfold doubleQuoted
  simp only [List.cons_append, List.append_assoc, List.take_append_drop, h]

/-- A lexeme and what is left are the whole text. -/
theorem chars_append_rest_read (first : Char) (cs : List Char) :
    (read first cs).chars ++ (read first cs).rest = first :: cs := by
  unfold read
  split
  · next h => exact chars_of_sign? h
  · split
    · next h => exact h ▸ chars_append_rest_quoted cs
    · split
      · next h => exact h ▸ chars_append_rest_doubleQuoted cs
      · split
        · exact chars_append_rest_delimited ..
        · split
          · exact chars_append_rest_delimited ..
          · split
            · exact chars_append_rest_number ..
            · split
              · exact congrArg (first :: ·)
                  (List.prefix_iff_eq_append.1 (List.takeWhile_prefix ..))
              · rfl

theorem chars_read_ne_nil (first : Char) (cs : List Char) : (read first cs).chars ≠ [] := by
  unfold read
  split
  · next h =>
    unfold sign? at h
    split at h <;> first | cases h; exact List.cons_ne_nil _ _ | cases h
  · split
    · simp [quoted, apply_ite Lexeme.chars]
    · split
      · exact List.cons_ne_nil _ _
      · split
        · simp only [delimited]; split <;> exact List.cons_ne_nil _ _
        · split
          · simp only [delimited]; split <;> exact List.cons_ne_nil _ _
          · split
            · simp
            · split <;> exact List.cons_ne_nil _ _

theorem length_rest_read_lt (first : Char) (cs : List Char) :
    (read first cs).rest.length < cs.length + 1 := by
  have h := congrArg List.length (chars_append_rest_read first cs)
  have := List.length_pos_iff.2 (chars_read_ne_nil first cs)
  simp only [List.length_append, List.length_cons] at h
  omega

end Lexeme

end Formulary

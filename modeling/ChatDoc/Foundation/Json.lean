import ChatDoc.Foundation.NumberText

/-!
# JSON

Values as trees over a type of strings and a type of numbers.  They are written
as Python's `json.dumps` writes them, in ASCII, and read as JavaScript's
`JSON.parse` reads them, where a string is a list of UTF-16 code units and a
number is a double.
-/

namespace Foundation

inductive Json (text number : Type) where
  | null
  | bool (b : Bool)
  | number (x : number)
  | string (s : text)
  | array (items : List (Json text number))
  | object (members : List (text × Json text number))

namespace Json

variable {text text' number number' : Type}

theorem induct {P : Json text number -> Prop} (hnull : P .null)
    (hbool : forall b, P (.bool b)) (hnumber : forall x, P (.number x))
    (hstring : forall s, P (.string s))
    (harray : forall items, (forall v, v ∈ items -> P v) -> P (.array items))
    (hobject : forall members : List (text × Json text number),
      (forall m, m ∈ members -> P m.2) -> P (.object members))
    (v : Json text number) : P v := by
  cases v with
  | null => exact hnull
  | bool b => exact hbool b
  | number x => exact hnumber x
  | string s => exact hstring s
  | array items =>
      exact harray items fun v hv =>
        induct hnull hbool hnumber hstring harray hobject v
  | object members =>
      exact hobject members fun m hm =>
        induct hnull hbool hnumber hstring harray hobject m.2
termination_by sizeOf v
decreasing_by
  · have hlt := List.sizeOf_lt_of_mem hv
    simp only [array.sizeOf_spec]
    omega
  · have hlt := List.sizeOf_lt_of_mem hm
    have hsnd : sizeOf m.2 < sizeOf m := by
      cases m
      simp only [Prod.mk.sizeOf_spec]
      omega
    simp only [object.sizeOf_spec]
    omega

mutual

def map (f : text -> text') (g : number -> number') : Json text number -> Json text' number'
  | .null => .null
  | .bool b => .bool b
  | .number x => .number (g x)
  | .string s => .string (f s)
  | .array items => .array (mapItems f g items)
  | .object members => .object (mapMembers f g members)

def mapItems (f : text -> text') (g : number -> number') :
    List (Json text number) -> List (Json text' number')
  | [] => []
  | v :: rest => v.map f g :: mapItems f g rest

def mapMembers (f : text -> text') (g : number -> number') :
    List (text × Json text number) -> List (text' × Json text' number')
  | [] => []
  | (key, v) :: rest => (f key, v.map f g) :: mapMembers f g rest

end

end Json

/-!
# Strings and numbers
-/

/-- A code point, surrogates included: what a Python string is made of. -/
abbrev CodePoint := Fin 0x110000

/-- What a JavaScript string is made of. -/
abbrev CodeUnit := UInt16

def utf16 (c : CodePoint) : List CodeUnit :=
  if c.val < 0x10000 then [UInt16.ofNat c.val]
  else [UInt16.ofNat (0xD800 + (c.val - 0x10000) / 0x400),
    UInt16.ofNat (0xDC00 + (c.val - 0x10000) % 0x400)]

def utf16Text (s : List CodePoint) : List CodeUnit := s.flatMap utf16

inductive PyNumber where
  | int (n : Int)
  | float (negative : Bool) (magnitude : Rat)
  | nan
  | infinity (negative : Bool)
deriving DecidableEq

inductive JsNumber where
  | finite (negative : Bool) (magnitude : Rat)
  | infinity (negative : Bool)
  | nan
deriving DecidableEq

namespace PyNumber

def Exact : PyNumber -> Prop
  | .int n => Representable n.natAbs
  | .float _ q => Representable q
  | _ => False

def Finite : PyNumber -> Prop
  | .int _ => True
  | .float _ q => Representable q
  | _ => False

def toJs : PyNumber -> JsNumber
  | .int n => .finite (n < 0) n.natAbs
  | .float negative q => .finite negative q
  | .nan => .nan
  | .infinity negative => .infinity negative

end PyNumber

abbrev PyValue := Json (List CodePoint) PyNumber

abbrev JsValue := Json (List CodeUnit) JsNumber

namespace PyValue

def toJs (v : PyValue) : JsValue := v.map utf16Text PyNumber.toJs

mutual

def Each (P : PyNumber -> Prop) : PyValue -> Prop
  | .number x => P x
  | .array items => EachItem P items
  | .object members =>
      (members.map fun m => utf16Text m.1).Nodup ∧ EachMember P members
  | _ => True

def EachItem (P : PyNumber -> Prop) : List PyValue -> Prop
  | [] => True
  | v :: rest => Each P v ∧ EachItem P rest

def EachMember (P : PyNumber -> Prop) : List (List CodePoint × PyValue) -> Prop
  | [] => True
  | (_, v) :: rest => Each P v ∧ EachMember P rest

end

def Exact (v : PyValue) : Prop := v.Each PyNumber.Exact

/-- The text of the value is JSON. -/
def Readable (v : PyValue) : Prop := v.Each PyNumber.Finite

end PyValue

/-!
# Writing
-/

def hexDigits (n : Nat) : List Char :=
  [Nat.digitChar (n / 4096 % 16), Nat.digitChar (n / 256 % 16),
    Nat.digitChar (n / 16 % 16), Nat.digitChar (n % 16)]

def unicodeEscape (u : CodeUnit) : List Char := '\\' :: 'u' :: hexDigits u.toNat

def escape (c : CodePoint) : List Char :=
  if c = 0x22 then ['\\', '"']
  else if c = 0x5C then ['\\', '\\']
  else if c = 0x0A then ['\\', 'n']
  else if c = 0x0D then ['\\', 'r']
  else if c = 0x09 then ['\\', 't']
  else if c = 0x0C then ['\\', 'f']
  else if c = 0x08 then ['\\', 'b']
  else if 0x20 ≤ c.val ∧ c.val ≤ 0x7E then [Char.ofNat c.val]
  else (utf16 c).flatMap unicodeEscape

def stringText (s : List CodePoint) : List Char := '"' :: (s.flatMap escape ++ ['"'])

def numberText : PyNumber -> List Char
  | .int n => intText n
  | .float negative q => floatText negative q
  | .nan => ['N', 'a', 'N']
  | .infinity negative =>
      Literal.sign negative ++ ['I', 'n', 'f', 'i', 'n', 'i', 't', 'y']

mutual

/-- `json.dumps(v)`. -/
def dumps : PyValue -> List Char
  | .null => ['n', 'u', 'l', 'l']
  | .bool true => ['t', 'r', 'u', 'e']
  | .bool false => ['f', 'a', 'l', 's', 'e']
  | .number x => numberText x
  | .string s => stringText s
  | .array items => '[' :: (dumpsItems items ++ [']'])
  | .object members => '{' :: (dumpsMembers members ++ ['}'])

def dumpsItems : List PyValue -> List Char
  | [] => []
  | [v] => dumps v
  | v :: rest => dumps v ++ ',' :: ' ' :: dumpsItems rest

def dumpsMembers : List (List CodePoint × PyValue) -> List Char
  | [] => []
  | [(key, v)] => stringText key ++ ':' :: ' ' :: dumps v
  | (key, v) :: rest =>
      stringText key ++ ':' :: ' ' :: (dumps v ++ ',' :: ' ' :: dumpsMembers rest)

end

/-!
# Reading
-/

def hexDigit (c : Char) : Option Nat :=
  if '0' ≤ c ∧ c ≤ '9' then some (c.toNat - 48)
  else if 'a' ≤ c ∧ c ≤ 'f' then some (c.toNat - 87)
  else if 'A' ≤ c ∧ c ≤ 'F' then some (c.toNat - 55)
  else none

def hexUnit (a b c d : Char) : Option CodeUnit := do
  let a ← hexDigit a
  let b ← hexDigit b
  let c ← hexDigit c
  let d ← hexDigit d
  some (UInt16.ofNat (((a * 16 + b) * 16 + c) * 16 + d))

/-- The character after a backslash, other than a `u`. -/
def simpleEscape (c : Char) : Option CodeUnit :=
  if c = '"' then some 0x22
  else if c = '\\' then some 0x5C
  else if c = '/' then some 0x2F
  else if c = 'b' then some 0x08
  else if c = 'f' then some 0x0C
  else if c = 'n' then some 0x0A
  else if c = 'r' then some 0x0D
  else if c = 't' then some 0x09
  else none

def codePoint (c : Char) : CodePoint :=
  ⟨c.toNat, by
    rcases c.valid with h | h
    · exact Nat.lt_trans h (by decide)
    · exact h.2⟩

def unitsBefore (us : List CodeUnit) :
    Option (List CodeUnit × List Char) -> Option (List CodeUnit × List Char) :=
  Option.map fun out => (us ++ out.1, out.2)

def readString : List Char -> Option (List CodeUnit × List Char)
  | [] => none
  | '"' :: rest => some ([], rest)
  | '\\' :: 'u' :: a :: b :: c :: d :: rest =>
      (hexUnit a b c d).bind fun u => unitsBefore [u] (readString rest)
  | '\\' :: c :: rest =>
      (simpleEscape c).bind fun u => unitsBefore [u] (readString rest)
  | c :: rest =>
      if c.toNat < 0x20 ∨ c = '\\' then none
      else unitsBefore (utf16 (codePoint c)) (readString rest)

def Literal.toJs (l : Literal) : JsNumber :=
  match nearest l.magnitude with
  | some q => .finite l.negative q
  | none => .infinity l.negative

def PyNumber.read : PyNumber -> JsNumber
  | .int n => (intLiteral n).toJs
  | .float negative q => .finite negative q
  | .nan => .nan
  | .infinity negative => .infinity negative

def PyValue.read (v : PyValue) : JsValue := v.map utf16Text PyNumber.read

def readNumber (text : List Char) : Option (JsValue × List Char) :=
  (readLiteral text).map fun out => (.number out.1.toJs, out.2)

def readKeyword : List Char -> Option (JsValue × List Char)
  | 'n' :: 'u' :: 'l' :: 'l' :: rest => some (.null, rest)
  | 't' :: 'r' :: 'u' :: 'e' :: rest => some (.bool true, rest)
  | 'f' :: 'a' :: 'l' :: 's' :: 'e' :: rest => some (.bool false, rest)
  | _ => none

def white (c : Char) : Bool := c = ' ' ∨ c = '\t' ∨ c = '\n' ∨ c = '\r'

def skipWhite (text : List Char) : List Char := text.dropWhile white

def setProperty (key : List CodeUnit) (v : JsValue) :
    List (List CodeUnit × JsValue) -> List (List CodeUnit × JsValue)
  | [] => [(key, v)]
  | (key', v') :: rest =>
      if key' = key then (key, v) :: rest else (key', v') :: setProperty key v rest

mutual

def readValue : Nat -> List Char -> Option (JsValue × List Char)
  | 0, _ => none
  | fuel + 1, text =>
      match skipWhite text with
      | '"' :: rest => (readString rest).map fun out => (.string out.1, out.2)
      | '[' :: rest =>
          match skipWhite rest with
          | ']' :: rest => some (.array [], rest)
          | rest => (readItems fuel rest).map fun out => (.array out.1, out.2)
      | '{' :: rest =>
          match skipWhite rest with
          | '}' :: rest => some (.object [], rest)
          | rest => (readMembers fuel [] rest).map fun out => (.object out.1, out.2)
      | text => (readKeyword text).or (readNumber text)

def readItems : Nat -> List Char -> Option (List JsValue × List Char)
  | 0, _ => none
  | fuel + 1, text =>
      (readValue fuel text).bind fun out =>
        match skipWhite out.2 with
        | ',' :: rest =>
            (readItems fuel rest).map fun more => (out.1 :: more.1, more.2)
        | ']' :: rest => some ([out.1], rest)
        | _ => none

def readMembers : Nat -> List (List CodeUnit × JsValue) -> List Char ->
    Option (List (List CodeUnit × JsValue) × List Char)
  | 0, _, _ => none
  | fuel + 1, seen, text =>
      match skipWhite text with
      | '"' :: rest =>
          (readString rest).bind fun key =>
            match skipWhite key.2 with
            | ':' :: rest =>
                (readValue fuel rest).bind fun out =>
                  match skipWhite out.2 with
                  | ',' :: rest =>
                      readMembers fuel (setProperty key.1 out.1 seen) rest
                  | '}' :: rest => some (setProperty key.1 out.1 seen, rest)
                  | _ => none
            | _ => none
      | _ => none

end

/-- `JSON.parse(text)`; none is a `SyntaxError`.  Every second step of the
reader takes a character. -/
def parse (text : List Char) : Option JsValue :=
  (readValue (2 * text.length + 2) text).bind fun out =>
    if skipWhite out.2 = [] then some out.1 else none

end Foundation

import OpenvpnServer.Lib.Dict
import OpenvpnServer.Lib.Text

namespace OpenvpnServer.Lib

-- JSON as Python's `json` module writes and reads it. Numbers are kept as they
-- are written; nothing here computes with them.
inductive Json where
  | null
  | bool (value : Bool)
  | num (literal : Text)
  | str (text : Text)
  | arr (items : List Json)
  | obj (members : List (Text × Json))

namespace Json

section Dumps

def hex4 (n : Nat) : Text :=
  [Nat.digitChar (n / 4096 % 16), Nat.digitChar (n / 256 % 16), Nat.digitChar (n / 16 % 16),
    Nat.digitChar (n % 16)]

def uEscape (n : Nat) : Text := '\\' :: 'u' :: hex4 n

-- With `ensure_ascii`: what is not printable ASCII is escaped, a character
-- beyond the basic plane as two surrogates.
def escapeChar (c : Char) : Text :=
  if c = '"' then ['\\', '"']
  else if c = '\\' then ['\\', '\\']
  else if c = '\n' then ['\\', 'n']
  else if c = '\r' then ['\\', 'r']
  else if c = '\t' then ['\\', 't']
  else if c = '\x0c' then ['\\', 'f']
  else if c = '\x08' then ['\\', 'b']
  else if 32 ≤ c.toNat ∧ c.toNat ≤ 126 then [c]
  else if c.toNat < 65536 then uEscape c.toNat
  else
    uEscape (55296 + (c.toNat - 65536) / 1024) ++ uEscape (56320 + (c.toNat - 65536) % 1024)

def quote (text : Text) : Text := '"' :: text.flatMap escapeChar ++ ['"']

mutual

-- `json.dumps(value, separators=(",", ":"))`
def dumps : Json → Text
  | null => "null".toList
  | bool true => "true".toList
  | bool false => "false".toList
  | num literal => literal
  | str text => quote text
  | arr [] => ['[', ']']
  | arr (item :: items) => '[' :: dumps item ++ dumpsItems items
  | obj [] => ['{', '}']
  | obj ((key, value) :: members) => '{' :: quote key ++ ':' :: dumps value ++ dumpsMembers members

def dumpsItems : List Json → Text
  | [] => [']']
  | item :: items => ',' :: dumps item ++ dumpsItems items

def dumpsMembers : List (Text × Json) → Text
  | [] => ['}']
  | (key, value) :: members => ',' :: quote key ++ ':' :: dumps value ++ dumpsMembers members

end

mutual

-- `json.dumps(value, separators=("," + gap, ":" + gap))`
def dumpsWith (gap : Text) : Json → Text
  | null => "null".toList
  | bool true => "true".toList
  | bool false => "false".toList
  | num literal => literal
  | str text => quote text
  | arr [] => ['[', ']']
  | arr (item :: items) => '[' :: dumpsWith gap item ++ dumpsItemsWith gap items
  | obj [] => ['{', '}']
  | obj ((key, value) :: members) =>
      '{' :: quote key ++ ':' :: (gap ++ dumpsWith gap value) ++ dumpsMembersWith gap members

def dumpsItemsWith (gap : Text) : List Json → Text
  | [] => [']']
  | item :: items => ',' :: (gap ++ dumpsWith gap item) ++ dumpsItemsWith gap items

def dumpsMembersWith (gap : Text) : List (Text × Json) → Text
  | [] => ['}']
  | (key, value) :: members =>
      ',' :: (gap ++ quote key) ++ ':' :: (gap ++ dumpsWith gap value) ++
        dumpsMembersWith gap members

end

-- `json.dumps(value)`
def dumpsSpaced (value : Json) : Text := dumpsWith [' '] value

end Dumps

section Loads

def isSpace (c : Char) : Bool := c ∈ [' ', '\t', '\n', '\r']

def skipSpace (text : Text) : Text := text.dropWhile isSpace

def hex4? (a b c d : Char) : Option Nat :=
  match hexDigit? a, hexDigit? b, hexDigit? c, hexDigit? d with
  | some a, some b, some c, some d => some (a * 4096 + b * 256 + c * 16 + d)
  | _, _, _, _ => none

def simpleEscape : Char → Option Char
  | '"' => some '"'
  | '\\' => some '\\'
  | '/' => some '/'
  | 'b' => some '\x08'
  | 'f' => some '\x0c'
  | 'n' => some '\n'
  | 'r' => some '\r'
  | 't' => some '\t'
  | _ => none

-- One escape after the backslash. Python also keeps a surrogate that has no
-- partner, which is no character of a text here.
def scanEscape : Text → Option (Char × Text)
  | 'u' :: a :: b :: c :: d :: rest =>
      match hex4? a b c d with
      | none => none
      | some n =>
          if 55296 ≤ n ∧ n ≤ 56319 then
            match rest with
            | '\\' :: 'u' :: e :: f :: g :: h :: rest =>
                match hex4? e f g h with
                | none => none
                | some m =>
                    if 56320 ≤ m ∧ m ≤ 57343 then
                      some (Char.ofNat (65536 + (n - 55296) * 1024 + (m - 56320)), rest)
                    else none
            | _ => none
          else if 56320 ≤ n ∧ n ≤ 57343 then none
          else some (Char.ofNat n, rest)
  | c :: rest => (simpleEscape c).map fun d => (d, rest)
  | [] => none

def scanString : Nat → Text → Option (Text × Text)
  | 0, _ => none
  | _ + 1, [] => none
  | fuel + 1, c :: rest =>
      if c = '"' then some ([], rest)
      else if c = '\\' then
        match scanEscape rest with
        | none => none
        | some (d, rest) => (scanString fuel rest).map fun (text, rest) => (d :: text, rest)
      else if c.toNat < 32 then none
      else (scanString fuel rest).map fun (text, rest) => (c :: text, rest)

def afterDigits (text : Text) : Option (Text × Text) :=
  if (text.takeWhile Char.isDigit).isEmpty then none
  else some (text.takeWhile Char.isDigit, text.dropWhile Char.isDigit)

-- (-?(?:0|[1-9][0-9]*))(\.[0-9]+)?([eE][-+]?[0-9]+)?
def scanNumber (text : Text) : Option (Text × Text) := do
  let (sign, text) := match text with
    | '-' :: rest => (['-'], rest)
    | _ => ([], text)
  let (whole, text) ← match text with
    | '0' :: rest => some (['0'], rest)
    | _ => afterDigits text
  let (fraction, text) := match text with
    | '.' :: rest => match afterDigits rest with
        | some (digits, rest) => ('.' :: digits, rest)
        | none => ([], text)
    | _ => ([], text)
  let (power, text) := match text with
    | e :: rest =>
        if e = 'e' ∨ e = 'E' then
          let (mark, rest) := match rest with
            | '-' :: rest => ([e, '-'], rest)
            | '+' :: rest => ([e, '+'], rest)
            | _ => ([e], rest)
          match afterDigits rest with
          | some (digits, rest) => (mark ++ digits, rest)
          | none => ([], text)
        else ([], text)
    | [] => ([], text)
  some (sign ++ whole ++ fraction ++ power, text)

def literals : List (Text × Json) :=
  [("null".toList, .null), ("true".toList, .bool true), ("false".toList, .bool false),
    ("NaN".toList, .num "NaN".toList), ("Infinity".toList, .num "Infinity".toList),
    ("-Infinity".toList, .num "-Infinity".toList)]

def scanLiteral (text : Text) : Option (Json × Text) :=
  match literals.find? fun literal => literal.1.isPrefixOf text with
  | some (word, value) => some (value, text.drop word.length)
  | none => (scanNumber text).map fun (literal, rest) => (.num literal, rest)

-- `dict(pairs)`: the last value of a key, at the place of its first.
def ofPairs (pairs : List (Text × Json)) : Json :=
  .obj (pairs.foldl (fun entries pair => Dict.setEntry pair.1 pair.2 entries) [])

mutual

-- The fuel bounds the nesting and the number of items; as much as the text is
-- long is always enough.
def scanValue : Nat → Text → Option (Json × Text)
  | 0, _ => none
  | _ + 1, [] => none
  | fuel + 1, c :: rest =>
      if c = '"' then (scanString (rest.length + 1) rest).map fun (text, rest) => (.str text, rest)
      else if c = '{' then
        if (skipSpace rest).head? = some '}' then some (.obj [], (skipSpace rest).tail)
        else (scanMembers fuel (skipSpace rest)).map fun (pairs, rest) => (ofPairs pairs, rest)
      else if c = '[' then
        if (skipSpace rest).head? = some ']' then some (.arr [], (skipSpace rest).tail)
        else (scanItems fuel (skipSpace rest)).map fun (items, rest) => (.arr items, rest)
      else scanLiteral (c :: rest)

def scanItems : Nat → Text → Option (List Json × Text)
  | 0, _ => none
  | fuel + 1, text =>
      match scanValue fuel text with
      | none => none
      | some (item, rest) =>
          match skipSpace rest with
          | ']' :: rest => some ([item], rest)
          | ',' :: rest =>
              (scanItems fuel (skipSpace rest)).map fun (items, rest) => (item :: items, rest)
          | _ => none

def scanMembers : Nat → Text → Option (List (Text × Json) × Text)
  | 0, _ => none
  | fuel + 1, text =>
      match text with
      | '"' :: rest =>
          match scanString (rest.length + 1) rest with
          | none => none
          | some (key, rest) =>
              match skipSpace rest with
              | ':' :: rest =>
                  match scanValue fuel (skipSpace rest) with
                  | none => none
                  | some (value, rest) =>
                      match skipSpace rest with
                      | '}' :: rest => some ([(key, value)], rest)
                      | ',' :: rest =>
                          (scanMembers fuel (skipSpace rest)).map fun (members, rest) =>
                            ((key, value) :: members, rest)
                      | _ => none
              | _ => none
      | _ => none

end

-- `json.loads(text)`, `none` for a `JSONDecodeError`
def loads (text : Text) : Option Json :=
  match scanValue text.length (skipSpace text) with
  | some (value, rest) => if skipSpace rest = [] then some value else none
  | none => none

end Loads

end Json

end OpenvpnServer.Lib

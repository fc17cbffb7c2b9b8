/-
  File:      DeveSub/Lib/Json.lean
  Subject:   JSON values as `serde_json::Value` holds them, their accessors, and the compact
             text `serde_json` writes for them.

  An object is a list of members with distinct keys; `get` reads the first member of a key and
  `insert` replaces the member of a key or adds one at the end, so a key never occurs twice in
  an object built by `insert`. A number is one of `serde_json`'s three cases; a float is kept as
  the text it is printed with, the only use the readers make of it. The writers keep the order of
  the members, where `serde_json` sorts them by key: no reader depends on it.
-/
import DeveSub.Lib.Text

namespace DeveSub

/-- `serde_json::Number`. -/
inductive JsonNumber where
  | posInt (n : UInt64)
  | negInt (n : Int)
  | float (repr : Str)
  deriving DecidableEq

/-- `serde_json::Value`. -/
inductive Json where
  | null
  | bool (b : Bool)
  | num (n : JsonNumber)
  | str (s : Str)
  | arr (items : List Json)
  | obj (members : List (Str × Json))

namespace Json

instance : Inhabited Json := ⟨.null⟩

/-! ## 1. Accessors -/

/-- `Value::get` with a string key: only an object answers. -/
def get (v : Json) (key : Str) : Option Json :=
  match v with
  | .obj ms => (ms.find? fun m => m.1 = key).map Prod.snd
  | _ => none

/-- `Value::as_str`. -/
def asStr : Json → Option Str
  | .str s => some s
  | _ => none

/-- `Value::as_bool`. -/
def asBool : Json → Option Bool
  | .bool b => some b
  | _ => none

/-- `Value::as_u64`: non-negative integers only. -/
def asU64 : Json → Option UInt64
  | .num (.posInt n) => some n
  | _ => none

/-- `Value::as_array`. -/
def asArray : Json → Option (List Json)
  | .arr xs => some xs
  | _ => none

/-- `Value::is_null`. -/
def isNull : Json → Bool
  | .null => true
  | _ => false

/-- Members with `key` bound to `v`: `Map::insert`. -/
def insertMember (key : Str) (v : Json) : List (Str × Json) → List (Str × Json)
  | [] => [(key, v)]
  | m :: ms => if m.1 = key then (key, v) :: ms else m :: insertMember key v ms

/-- Members without `key`: `Map::remove`. -/
def removeMember (key : Str) (ms : List (Str × Json)) : List (Str × Json) :=
  ms.filter fun m => m.1 ≠ key

/-- An unsigned number as a value. -/
def ofNat (n : Nat) : Json := .num (.posInt (UInt64.ofNat n))

@[simp] theorem asStr_str (s : Str) : (Json.str s).asStr = some s := rfl

theorem asStr_some {v : Json} {s : Str} (h : v.asStr = some s) : v = .str s := by
  cases v with
  | str t => exact congrArg Json.str (Option.some.inj h)
  | null | bool _ | num _ | arr _ | obj _ => cases h

@[simp] theorem get_obj_nil (key : Str) : (Json.obj []).get key = none := rfl

theorem get_obj_cons (k : Str) (v : Json) (ms : List (Str × Json)) (key : Str) :
    (Json.obj ((k, v) :: ms)).get key = if k = key then some v else (Json.obj ms).get key := by
  by_cases hk : k = key <;> simp [get, hk]

/-! ## 2. The compact text -/

/-- The four hexadecimal digits of a code point below `0x10000`. -/
def hex4 (n : Nat) : Str :=
  [Nat.digitChar (n / 4096 % 16), Nat.digitChar (n / 256 % 16), Nat.digitChar (n / 16 % 16),
    Nat.digitChar (n % 16)]

/-- One character inside a string literal, as `serde_json` writes it. -/
def escapeChar (c : Char) : Str :=
  if c = '"' then ['\\', '"']
  else if c = '\\' then ['\\', '\\']
  else if c.toNat = 8 then ['\\', 'b']
  else if c.toNat = 12 then ['\\', 'f']
  else if c = '\n' then ['\\', 'n']
  else if c = '\r' then ['\\', 'r']
  else if c = '\t' then ['\\', 't']
  else if c.toNat < 32 then '\\' :: 'u' :: hex4 c.toNat
  else [c]

/-- A string literal. -/
def quote (s : Str) : Str := '"' :: (s.flatMap escapeChar ++ ['"'])

/-- A number. -/
def numText : JsonNumber → Str
  | .posInt n => natText n.toNat
  | .negInt n => '-' :: natText n.natAbs
  | .float repr => repr

mutual

/-- `serde_json::to_string`. -/
def text : Json → Str
  | .null => "null".toList
  | .bool true => "true".toList
  | .bool false => "false".toList
  | .num n => numText n
  | .str s => quote s
  | .arr xs => '[' :: (itemsText xs ++ [']'])
  | .obj ms => '{' :: (membersText ms ++ ['}'])

/-- The items of an array, separated by commas. -/
def itemsText : List Json → Str
  | [] => []
  | [x] => text x
  | x :: y :: xs => text x ++ ',' :: itemsText (y :: xs)

/-- The members of an object, separated by commas. -/
def membersText : List (Str × Json) → Str
  | [] => []
  | [(k, v)] => quote k ++ ':' :: text v
  | (k, v) :: m :: ms => quote k ++ ':' :: (text v ++ ',' :: membersText (m :: ms))

end

/-! ## 3. The indented text -/

/-- The start of a line at an indentation. -/
def newline (indent : Nat) : Str := '\n' :: List.replicate indent ' '

mutual

/-- `serde_json::to_string_pretty`, inside a block at `indent`. -/
def prettyAt (indent : Nat) : Json → Str
  | .arr [] => ['[', ']']
  | .arr (x :: xs) => '[' :: (prettyItems (indent + 2) (x :: xs) ++ newline indent ++ [']'])
  | .obj [] => ['{', '}']
  | .obj (m :: ms) => '{' :: (prettyMembers (indent + 2) (m :: ms) ++ newline indent ++ ['}'])
  | .null => "null".toList
  | .bool true => "true".toList
  | .bool false => "false".toList
  | .num n => numText n
  | .str s => quote s

/-- The items of an array, one a line. -/
def prettyItems (indent : Nat) : List Json → Str
  | [] => []
  | [x] => newline indent ++ prettyAt indent x
  | x :: y :: xs => newline indent ++ prettyAt indent x ++ ',' :: prettyItems indent (y :: xs)

/-- The members of an object, one a line. -/
def prettyMembers (indent : Nat) : List (Str × Json) → Str
  | [] => []
  | [(k, v)] => newline indent ++ quote k ++ ':' :: ' ' :: prettyAt indent v
  | (k, v) :: m :: ms =>
      newline indent ++ quote k ++ ':' :: ' ' :: (prettyAt indent v ++
        ',' :: prettyMembers indent (m :: ms))

end

/-- `serde_json::to_string_pretty`. -/
def pretty (v : Json) : Str := prettyAt 0 v

end Json

/-! ## 4. The codec -/

/-- A JSON reader and writer that undo each other on objects of strings with distinct keys (the
    texts this development writes and reads again). An error is its message. -/
structure JsonCodec where
  read : Str → Except Str Json
  write : Json → Str
  read_write : ∀ ms : List (Str × Str), (ms.map Prod.fst).Nodup →
    read (write (.obj (ms.map fun m => (m.1, .str m.2)))) =
      .ok (.obj (ms.map fun m => (m.1, .str m.2)))

end DeveSub

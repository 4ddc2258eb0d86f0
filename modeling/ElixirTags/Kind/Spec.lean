import ElixirTags.Kind.Set

/-!
# Kind specs

A kind spec is the text that switches kinds on and off: `+p-l`, `fm`, `-{function}`.  It is read as
a row of `KindSpec.Token`s.  A kind is named by its letter or by its name in braces, and `*` names
every kind; `+` and `-` say whether the kinds after them go on or off.  A spec that begins with one
of the two signs edits the set it is applied to, any other replaces it.

Reading may fail, with the leftmost token that is none; applying what was read cannot.  So a spec
with a fault changes nothing.
-/

namespace ElixirTags

namespace KindSpec

/-- A part of a kind spec. -/
inductive Token where
  /-- `+`: the kinds that follow go on. -/
  | plus
  /-- `-`: the kinds that follow go off. -/
  | minus
  /-- `*`: every kind. -/
  | every
  /-- A letter, or a name in braces. -/
  | kind (k : Kind)
deriving DecidableEq, Repr

/-- Why a text is no kind spec. -/
inductive Fault where
  /-- No kind has this letter. -/
  | unknownLetter (c : Char)
  /-- No kind has this name, which stood in braces. -/
  | unknownName (name : String)
  /-- A brace is not closed before the end of the spec, which is the text after it. -/
  | unterminatedName (text : String)
deriving DecidableEq, Repr

/-- The words for a fault. -/
def Fault.message : Fault → String
  | unknownLetter c => "unknown kind letter '" ++ c.toString ++ "'"
  | unknownName name => "unknown kind name '\x7b" ++ name ++ "\x7d'"
  | unterminatedName text => "unterminated kind name '\x7b" ++ text ++ "'"

/-- The token of a single character. -/
def ofChar (c : Char) : Except Fault Token :=
  if c = '+' then .ok .plus
  else if c = '-' then .ok .minus
  else if c = '*' then .ok .every
  else match Kind.ofCode? c with
    | some k => .ok (.kind k)
    | none => .error (.unknownLetter c)

/-- The token of a name in braces. -/
def ofBraced (name : List Char) : Except Fault Token :=
  match Kind.ofName? (String.ofList name) with
  | some k => .ok (.kind k)
  | none => .error (.unknownName (String.ofList name))

/-- Puts a token in front, unless either part has a fault; the fault on the left comes first. -/
def cons (t : Except Fault Token) (ts : Except Fault (List Token)) : Except Fault (List Token) :=
  match t, ts with
  | .ok t, .ok ts => .ok (t :: ts)
  | .error e, _ => .error e
  | .ok _, .error e => .error e

/-- The tokens of a spec, where `held` is the part of an unclosed name that has been read. -/
def readFrom : (held : Option (List Char)) → List Char → Except Fault (List Token)
  | none, [] => .ok []
  | some held, [] => .error (.unterminatedName (String.ofList held))
  | none, c :: rest =>
    if c = '\x7b' then readFrom (some []) rest else cons (ofChar c) (readFrom none rest)
  | some held, c :: rest =>
    if c = '\x7d' then cons (ofBraced held) (readFrom none rest)
    else readFrom (some (held ++ [c])) rest

/-- The tokens of a spec. -/
def readTokens (text : List Char) : Except Fault (List Token) :=
  readFrom none text

end KindSpec

/-- A kind spec without fault. -/
structure KindSpec where
  /-- The spec begins with a sign and so edits the set it is applied to. -/
  edits : Bool
  /-- The tokens in order. -/
  tokens : List KindSpec.Token
deriving DecidableEq, Repr

namespace KindSpec

/-- The text begins with a sign. -/
def isEdit : List Char → Bool
  | c :: _ => c == '+' || c == '-'
  | [] => false

/-- Reads a kind spec. -/
def parse (text : String) : Except Fault KindSpec :=
  (readTokens text.toList).map fun ts => ⟨isEdit text.toList, ts⟩

/-- Applies tokens from left to right; `on` says where the kinds named next go. -/
def run : (on : Bool) → KindSet → List Token → KindSet
  | _, s, [] => s
  | _, s, .plus :: ts => run true s ts
  | _, s, .minus :: ts => run false s ts
  | on, s, .every :: ts => run on (s.switch .full on) ts
  | on, s, .kind k :: ts => run on (s.switch (.single k) on) ts

/-- The set after the spec. -/
def apply (spec : KindSpec) (s : KindSet) : KindSet :=
  run true (if spec.edits then s else ∅) spec.tokens

end KindSpec

/-- Reads a kind spec and applies it. -/
def KindSet.applySpec (s : KindSet) (text : String) : Except KindSpec.Fault KindSet :=
  (KindSpec.parse text).map (·.apply s)

/-- Applies a kind spec to the set in use.  The set is replaced only once the whole spec has been
applied. -/
def KindSet.edit (text : String) : ExceptT KindSpec.Fault (StateM KindSet) Unit := do
  let s ← get
  match s.applySpec text with
  | .ok after => set after
  | .error fault => throw fault

/-! ## Listing -/

/-- The text filled up with spaces to `width` characters. -/
def padRight (width : Nat) (s : String) : String :=
  s ++ String.ofList (List.replicate (width - s.length) ' ')

/-- One row for each kind: letter, name, description, and a mark if the kind is off. -/
def KindSet.listing (s : KindSet) : String :=
  String.join <| Kind.all.map fun k =>
    k.code.toString ++ "  " ++ padRight 10 k.name ++ " " ++ k.description ++
      (if k ∈ s then "" else " [off]") ++ "\n"

end ElixirTags

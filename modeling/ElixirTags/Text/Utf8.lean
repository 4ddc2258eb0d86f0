import ElixirTags.Text.Bytes

/-!
# Reading bytes as UTF-8

A byte text is cut into `Utf8.Piece`s: the bytes of one well-formed character, or a stretch that
belongs to none.  Such a stretch is as long as it can be while it is still the beginning of some
character, so a truncated character counts once and a stray byte counts alone.

Everything else about the encoding is read off this one view: `Utf8.repair` writes the replacement
character for every broken piece, `Utf8.characters` decodes, `Utf8.text` does both into a `String`.
`Utf8.Valid` is decided without building the pieces, and holds exactly when none of them is broken
(`valid_iff`).  ASCII bytes stand alone in every text: `pieces_append_ascii`.
-/

namespace ElixirTags.Utf8

/-! ## The decoder -/

/-- What the next byte of an unfinished character may be, and how many continuation bytes come
after it.  Only the byte after the first one has bounds narrower than `80` to `BF`: they exclude
overlong forms, surrogates and values above `10FFFF`. -/
structure Awaited where
  /-- The least byte that continues the character. -/
  lo : UInt8
  /-- The greatest byte that continues the character. -/
  hi : UInt8
  /-- The number of bytes that follow this one. -/
  more : Nat
deriving DecidableEq, Repr

/-- What a byte means where a character may begin. -/
inductive Opening where
  /-- The byte is a character by itself. -/
  | whole
  /-- The byte begins a longer character. -/
  | lead (next : Awaited)
  /-- No character begins with this byte. -/
  | stray
deriving DecidableEq, Repr

/-- The first byte of a character, by the table of well-formed sequences. -/
def opening (b : UInt8) : Opening :=
  if b < 0x80 then .whole
  else if b < 0xC2 then .stray
  else if b < 0xE0 then .lead ⟨0x80, 0xBF, 0⟩
  else if b = 0xE0 then .lead ⟨0xA0, 0xBF, 1⟩
  else if b = 0xED then .lead ⟨0x80, 0x9F, 1⟩
  else if b < 0xF0 then .lead ⟨0x80, 0xBF, 1⟩
  else if b = 0xF0 then .lead ⟨0x90, 0xBF, 2⟩
  else if b < 0xF4 then .lead ⟨0x80, 0xBF, 2⟩
  else if b = 0xF4 then .lead ⟨0x80, 0x8F, 2⟩
  else .stray

/-- Where the decoder stands between two bytes. -/
inductive State where
  | boundary
  /-- Inside a character, of which the bytes `held` have been read. -/
  | inside (held : Bytes) (next : Awaited)
deriving DecidableEq, Repr

/-- A part of a text. -/
inductive Piece where
  /-- The bytes of one well-formed character. -/
  | character (bytes : Bytes)
  /-- A stretch that belongs to no character. -/
  | broken
deriving DecidableEq, Repr

/-- Reads a byte at a character boundary. -/
def start (b : UInt8) : List Piece × State :=
  match opening b with
  | .whole => ([.character [b]], .boundary)
  | .lead next => ([], .inside [b] next)
  | .stray => ([.broken], .boundary)

/-- Reads a byte.  A byte that does not continue the unfinished character breaks it off and is then
read as the first of the next one. -/
def State.step : State → UInt8 → List Piece × State
  | .boundary, b => start b
  | .inside held next, b =>
    if next.lo ≤ b && b ≤ next.hi then
      match next.more with
      | 0 => ([.character (held ++ [b])], .boundary)
      | n + 1 => ([], .inside (held ++ [b]) ⟨0x80, 0xBF, n⟩)
    else
      (.broken :: (start b).1, (start b).2)

/-- What the end of the text leaves behind: an unfinished character is broken. -/
def State.finish : State → List Piece
  | .boundary => []
  | .inside _ _ => [.broken]

/-- The pieces of a text that the decoder enters in the given state. -/
def piecesFrom : State → Bytes → List Piece
  | s, [] => s.finish
  | s, b :: rest => (s.step b).1 ++ piecesFrom (s.step b).2 rest

/-- The pieces of a text, in order. -/
def pieces (text : Bytes) : List Piece :=
  piecesFrom .boundary text

/-! ## What is read off the pieces -/

/-- The bytes of the replacement character, `U+FFFD`. -/
def replacement : Bytes := [0xEF, 0xBF, 0xBD]

/-- The bytes of a piece in repaired text. -/
def Piece.bytes : Piece → Bytes
  | .character bs => bs
  | .broken => replacement

/-- The number that the bytes of a character encode. -/
def codePoint : Bytes → Nat
  | [a] => a.toNat
  | [a, b] => a.toNat % 0x20 * 0x40 + b.toNat % 0x40
  | [a, b, c] => (a.toNat % 0x10 * 0x40 + b.toNat % 0x40) * 0x40 + c.toNat % 0x40
  | [a, b, c, d] =>
    ((a.toNat % 0x08 * 0x40 + b.toNat % 0x40) * 0x40 + c.toNat % 0x40) * 0x40 + d.toNat % 0x40
  | _ => 0xFFFD

/-- The character of a piece. -/
def Piece.char (p : Piece) : Char :=
  Char.ofNat (codePoint p.bytes)

/-- The text with every broken piece replaced by `U+FFFD`. -/
def repair (text : Bytes) : Bytes :=
  (pieces text).flatMap Piece.bytes

/-- The characters of the repaired text. -/
def characters (text : Bytes) : List Char :=
  (pieces text).map Piece.char

/-- The repaired text as a string. -/
def text (bytes : Bytes) : String :=
  String.ofList (characters bytes)

/-! ## Validity -/

/-- The state after a byte, or `none` if the byte cannot stand there. -/
def State.advance? : State → UInt8 → Option State
  | .boundary, b =>
    match opening b with
    | .whole => some .boundary
    | .lead next => some (.inside [b] next)
    | .stray => none
  | .inside held next, b =>
    if next.lo ≤ b && b ≤ next.hi then
      match next.more with
      | 0 => some .boundary
      | n + 1 => some (.inside (held ++ [b]) ⟨0x80, 0xBF, n⟩)
    else none

/-- Whether a text that the decoder enters in the given state is well formed to its end. -/
def validFrom : State → Bytes → Bool
  | .boundary, [] => true
  | .inside _ _, [] => false
  | s, b :: rest =>
    match s.advance? b with
    | some next => validFrom next rest
    | none => false

/-- The text is well-formed UTF-8. -/
def Valid (text : Bytes) : Prop :=
  validFrom .boundary text = true

instance (text : Bytes) : Decidable (Valid text) :=
  inferInstanceAs (Decidable (_ = true))

/-- A place in a text where a character may begin: its start, its end, and before any byte that is
not a continuation byte. -/
def isBoundary (text : Bytes) (n : Nat) : Bool :=
  n == 0 || match text[n]? with
    | some b => b < 0x80 || 0xC0 ≤ b
    | none => n == text.length

/-! ## Lemmas -/

theorem opening_ascii {b : UInt8} (h : b < 0x80) : opening b = .whole := by
  simp [opening, h]

theorem start_ascii {b : UInt8} (h : b < 0x80) : start b = ([.character [b]], .boundary) := by
  simp [start, opening_ascii h]

/-- The bounds that `opening` gives exclude ASCII bytes. -/
theorem lo_of_opening {b : UInt8} {next : Awaited} (h : opening b = .lead next) :
    0x80 ≤ next.lo := by
  unfold opening at h
  repeat' split at h
  all_goals cases h <;> decide

/-- An unfinished character awaits bytes outside ASCII only. -/
def State.Sound : State → Prop
  | .boundary => True
  | .inside _ next => 0x80 ≤ next.lo

theorem start_sound (b : UInt8) : (start b).2.Sound := by
  unfold start
  split
  · trivial
  · next h => exact lo_of_opening h
  · trivial

theorem State.step_sound (s : State) (b : UInt8) : (s.step b).2.Sound := by
  cases s with
  | boundary => exact start_sound b
  | inside held next =>
    simp only [State.step]
    split
    · split
      · trivial
      · exact (by decide : (0x80 : UInt8) ≤ 0x80)
    · exact start_sound b

/-- An ASCII byte ends whatever came before it and is a character by itself. -/
theorem State.step_ascii {s : State} (hs : s.Sound) {b : UInt8} (h : b < 0x80) :
    s.step b = (s.finish ++ [.character [b]], .boundary) := by
  cases s with
  | boundary => simp [State.step, State.finish, start_ascii h]
  | inside held next =>
    have hlo : ¬ next.lo ≤ b := by
      simp only [State.Sound] at hs
      simp only [UInt8.le_iff_toNat_le, UInt8.lt_iff_toNat_lt] at *
      omega
    simp [State.step, State.finish, hlo, start_ascii h]

theorem piecesFrom_append_ascii {b : UInt8} (h : b < 0x80) (rest : Bytes) :
    ∀ (left : Bytes) {s : State}, s.Sound →
      piecesFrom s (left ++ b :: rest) = piecesFrom s left ++ .character [b] :: pieces rest
  | [], s, hs => by simp [piecesFrom, pieces, State.step_ascii hs h]
  | a :: left, s, _ => by
    simp [piecesFrom, piecesFrom_append_ascii h rest left (s.step_sound a)]

/-- A text splits at each of its ASCII bytes: what stands before it and what stands after it are
read independently. -/
theorem pieces_append_ascii {b : UInt8} (h : b < 0x80) (left rest : Bytes) :
    pieces (left ++ b :: rest) = pieces left ++ .character [b] :: pieces rest :=
  piecesFrom_append_ascii h rest left (s := .boundary) trivial

theorem repair_append_ascii {b : UInt8} (h : b < 0x80) (left rest : Bytes) :
    repair (left ++ b :: rest) = repair left ++ b :: repair rest := by
  simp [repair, pieces_append_ascii h, Piece.bytes]

/-! ### Validity -/

/-- The strict decoder goes on where the repairing one breaks nothing off. -/
theorem State.advance?_of_not_mem {s : State} {b : UInt8} (h : .broken ∉ (s.step b).1) :
    s.advance? b = some (s.step b).2 := by
  cases s with
  | boundary =>
    simp only [State.advance?, State.step, start] at h ⊢
    split at h <;> simp_all
  | inside held next =>
    simp only [State.advance?, State.step] at h ⊢
    split at h
    · split at h <;> simp_all
    · simp at h

/-- The strict decoder stops where the repairing one breaks something off. -/
theorem State.advance?_of_mem {s : State} {b : UInt8} (h : .broken ∈ (s.step b).1) :
    s.advance? b = none := by
  cases s with
  | boundary =>
    simp only [State.advance?, State.step, start] at h ⊢
    split at h <;> simp_all
  | inside held next =>
    simp only [State.advance?, State.step] at h ⊢
    split at h
    · split at h <;> simp at h
    · next hout => rw [if_neg hout]

theorem validFrom_iff : ∀ (text : Bytes) (s : State),
    validFrom s text = true ↔ .broken ∉ piecesFrom s text
  | [], s => by cases s <;> simp [validFrom, piecesFrom, State.finish]
  | b :: rest, s => by
    have ih := validFrom_iff rest (s.step b).2
    by_cases h : .broken ∈ (s.step b).1
    · simp [validFrom, piecesFrom, State.advance?_of_mem h, h]
    · simp [validFrom, piecesFrom, State.advance?_of_not_mem h, h, ih]

/-- A text is well formed exactly when none of its pieces is broken. -/
theorem valid_iff (text : Bytes) : Valid text ↔ .broken ∉ pieces text :=
  validFrom_iff text .boundary

/-- The bytes that the decoder has read and not yet accounted for. -/
def State.held : State → Bytes
  | .boundary => []
  | .inside bs _ => bs

theorem start_bytes {b : UInt8} (h : .broken ∉ (start b).1) :
    (start b).1.flatMap Piece.bytes ++ (start b).2.held = [b] := by
  unfold start at h ⊢
  split at h <;> simp_all [State.held, Piece.bytes]

theorem State.step_bytes {s : State} {b : UInt8} (h : .broken ∉ (s.step b).1) :
    (s.step b).1.flatMap Piece.bytes ++ (s.step b).2.held = s.held ++ [b] := by
  cases s with
  | boundary => simpa [State.step, State.held] using start_bytes h
  | inside held next =>
    simp only [State.step] at h ⊢
    split at h
    · next hin =>
      rw [if_pos hin]
      split <;> simp [State.held, Piece.bytes]
    · simp at h

theorem piecesFrom_bytes : ∀ (text : Bytes) (s : State), .broken ∉ piecesFrom s text →
    (piecesFrom s text).flatMap Piece.bytes = s.held ++ text
  | [], s, h => by
    cases s <;> simp_all [piecesFrom, State.finish, State.held]
  | b :: rest, s, h => by
    simp only [piecesFrom, List.mem_append, not_or] at h
    have ih := piecesFrom_bytes rest (s.step b).2 h.2
    have hb := State.step_bytes h.1
    rw [piecesFrom, List.flatMap_append, ih, ← List.append_assoc, hb, List.append_assoc]
    rfl

/-- Well-formed text needs no repair. -/
theorem repair_of_valid {text : Bytes} (h : Valid text) : repair text = text :=
  piecesFrom_bytes text .boundary ((valid_iff text).1 h)

end ElixirTags.Utf8

import ElixirTags.Scan.Scanner
import Mathlib.Data.List.DropRight
import Mathlib.Tactic.Lemma

/-!
# Files do not see each other

A scanner uses its buffers again from line to line and from file to file, and a file may end in the
middle because it cannot be read on.  Still nothing is handed on but the owner, and that only
between lines that are scanned one by one (`Scanner.run_isolated`).

There are two parts to this.  What is left in the buffers for the word and the name is never looked
at: the answers of a scanner are those of a session, whatever the buffers hold
(`Scanner.seen_run`).  And every call but the one that scans a single line leaves a scanner as if it
were new (`Scanner.call_of_not_isLine`), so only the lines since the last such call count
(`Scanner.after_rtakeWhile`).
-/

namespace ElixirTags

/-- The call scans a single line. -/
def Session.Call.isLine : Session.Call → Bool
  | line .. => true
  | _ => false

/-- No line after the first has the number 1. -/
lemma LineNumber.next_ne {n : LineNumber} (h : n ≠ 0) : n.next ≠ 0 ∧ n.next ≠ 1 := by
  rw [next]
  split
  · next hmax =>
    rw [hmax]
    decide
  · grind

lemma Reading.events_cons (config : Config) (r : Reading) (rest : List Reading) :
    events config (r :: rest) = (r.event? config).toList ++ events config rest := by
  rw [events, events, List.filterMap_cons]
  cases r.event? config with
  | none => rfl
  | some event => rfl

/-- The tag of a line is the one in its event. -/
lemma Reading.bind_tag?_event? (r : Reading) (config : Config) :
    (r.event? config).bind Event.tag? = r.tag? config := by
  obtain ⟨number, owner, verdict⟩ := r
  rw [event?, tag?]
  cases verdict with
  | ignored => rfl
  | unknownWord word => rfl
  | refusedName directive name => rfl
  | defines directive name =>
      show (((Verdict.defines directive name).tag? config owner number).map Event.tagFound).bind
        Event.tag? = _
      cases (Verdict.defines directive name).tag? config owner number with
      | none => rfl
      | some tag => rfl

namespace Scanner

variable (s : Scanner)

/-- What a scanner amounts to. -/
def session : Session where
  config := s.config
  owner := s.owner?

/-! ## One line -/

lemma owner?_ne_nil {owner : Bytes} (h : s.owner? = some owner) : owner ≠ [] := by
  rw [owner?] at h
  split at h
  · cases h
  · next hne =>
    cases h
    exact hne

lemma find_eq (directive : Directive) (number : LineNumber) {owner : Option Bytes}
    (howner : owner = if directive.isFunction && s.config.scopes then s.owner? else none) :
    s.find directive owner number =
      ((Verdict.defines directive s.name).tag? s.config s.owner? number).map .tagFound := by
  have hfilter : owner.filter (· ≠ []) = owner := by
    cases howner' : owner with
    | none => rfl
    | some name =>
        have hname : s.owner? = some name := by
          rw [howner'] at howner
          split at howner
          · exact howner.symm
          · cases howner
        simp [s.owner?_ne_nil hname]
  rw [find, hfilter, Verdict.tag?, howner]
  by_cases hname : s.name = []
  · simp [hname]
  · by_cases hkind : directive.kind ∈ s.config.kinds
    · simp [hname, hkind]
    · simp [hname, hkind]

lemma session_begin (directive : Directive) :
    (s.begin directive).session =
      { s.session with owner := (Verdict.defines directive s.name).ownerAfter s.owner? } := by
  rw [begin, Verdict.ownerAfter]
  by_cases h : directive.beginsModule = true ∧ s.name ≠ []
  · rw [if_pos h, if_pos (by simpa using h), session, owner?, if_neg h.2]
    rfl
  · rw [if_neg h, if_neg (by simpa using h)]
    rfl

lemma define_spec (directive : Directive) (number : LineNumber) :
    let verdict : Verdict :=
      if directive.isFunction && s.config.lettersOnly && !Verdict.startsWithLetter s.name then
        .refusedName directive s.name
      else .defines directive s.name
    (s.define directive number).1 = verdict.event? s.config s.owner? number ∧
      (s.define directive number).2.session =
        { s.session with owner := verdict.ownerAfter s.owner? } := by
  intro verdict
  cases hfunction : directive.isFunction with
  | false =>
      have hverdict : verdict = .defines directive s.name := by simp [verdict, hfunction]
      rw [define, if_neg (by simp [hfunction]), hverdict]
      exact ⟨s.find_eq directive number (by simp [hfunction]), s.session_begin directive⟩
  | true =>
      rw [define, if_pos hfunction]
      by_cases hrefused : s.config.lettersOnly = true ∧ ¬ Verdict.startsWithLetter s.name = true
      · have hverdict : verdict = .refusedName directive s.name := by
          simp [verdict, hfunction, hrefused]
        rw [if_pos hrefused, hverdict]
        exact ⟨rfl, rfl⟩
      · have hverdict : verdict = .defines directive s.name := by
          refine if_neg ?_
          simpa [hfunction] using hrefused
        rw [if_neg hrefused, hverdict]
        exact ⟨s.find_eq directive number (by simp [hfunction]), s.session_begin directive⟩

/-- A line is scanned as by a session, whatever the buffers hold. -/
lemma scanLine_spec (number : LineNumber) (line : Bytes) :
    let reading := Reading.ofLine s.config s.owner? number line
    (s.scanLine number line).1 = reading.event? s.config ∧
      (s.scanLine number line).2.session = { s.session with owner := reading.ownerAfter } := by
  show _ = (Verdict.ofLine s.config line).event? s.config s.owner? number ∧
    _ = { s.session with owner := (Verdict.ofLine s.config line).ownerAfter s.owner? }
  rw [scanLine, Verdict.ofLine]
  dsimp only
  by_cases hlead : (Cursor.ofLine line).skipBlanks.current = Directive.lead
  · rw [if_neg (not_not.2 hlead), if_pos hlead]
    cases s.config.directive?
        ((Cursor.ofLine line).skipBlanks.identifier s.config.identClass).1 with
    | none => exact ⟨rfl, rfl⟩
    | some directive =>
        -- both buffers are filled by now, and the owner has not been touched
        exact define_spec { s with word := _, name := _ } directive number
  · rw [if_pos hlead, if_neg hlead]
    exact ⟨rfl, rfl⟩

@[simp] lemma config_scanLine (number : LineNumber) (line : Bytes) :
    (s.scanLine number line).2.config = s.config :=
  congrArg Session.config (s.scanLine_spec number line).2

/-! ## Whole files -/

lemma scanLines_cons (number : LineNumber) (text : Bytes) (rest : List (LineNumber × Bytes)) :
    s.scanLines ((number, text) :: rest) =
      ((s.scanLine number text).1.toList ++ ((s.scanLine number text).2.scanLines rest).1,
        ((s.scanLine number text).2.scanLines rest).2) := by
  rw [scanLines]

lemma scanRecords_cons (last : LineNumber) (record : Bytes) (rest : List Bytes) :
    s.scanRecords last (record :: rest) =
      ((s.scanLine last.next (lineOfRecord last.next record)).1.toList ++
          ((s.scanLine last.next (lineOfRecord last.next record)).2.scanRecords last.next rest).1,
        ((s.scanLine last.next (lineOfRecord last.next record)).2.scanRecords last.next
          rest).2) := by
  rw [scanRecords]

/-- The scan of some lines finds what a session finds that has begun the same module. -/
lemma events_scanLines (lines : List (LineNumber × Bytes)) :
    (s.scanLines lines).1 =
      Reading.events s.config (Reading.ofLines s.config s.owner? lines) := by
  induction lines generalizing s with
  | nil => rfl
  | cons line rest ih =>
      obtain ⟨number, text⟩ := line
      obtain ⟨hevent, hsession⟩ := s.scanLine_spec number text
      have howner : (s.scanLine number text).2.owner? =
          (Reading.ofLine s.config s.owner? number text).ownerAfter :=
        congrArg Session.owner hsession
      rw [scanLines_cons, ih, config_scanLine, howner, hevent, Reading.ofLines,
        Reading.events_cons]

/-- The lines in some records, where `last` is the number of the line before. -/
def linesOfRecords (last : LineNumber) : List Bytes → List (LineNumber × Bytes)
  | [] => []
  | record :: rest => (last.next, lineOfRecord last.next record) :: linesOfRecords last.next rest

lemma events_scanRecords (last : LineNumber) (records : List Bytes) :
    (s.scanRecords last records).1 = (s.scanLines (linesOfRecords last records)).1 := by
  induction records generalizing s last with
  | nil => rfl
  | cons record rest ih => rw [scanRecords_cons, ih, linesOfRecords, scanLines_cons]

lemma scanRecords_append (last : LineNumber) (a b : List Bytes) :
    s.scanRecords last (a ++ b) =
      ((s.scanRecords last a).1 ++
          ((s.scanRecords last a).2.2.scanRecords (s.scanRecords last a).2.1 b).1,
        ((s.scanRecords last a).2.2.scanRecords (s.scanRecords last a).2.1 b).2) := by
  induction a generalizing s last with
  | nil => rfl
  | cons record rest ih =>
      rw [List.cons_append, scanRecords_cons, ih, scanRecords_cons, List.append_assoc]

/-- A feed is scanned as the records that it has brought when it ends. -/
lemma reply_scanFeed (last : LineNumber) (held : Bytes) (feed : Feed String) :
    (s.scanFeed last held feed).1 =
      { events := (s.scanRecords last (feed.recordsFrom held)).1, failure := feed.failure? } := by
  induction feed generalizing s last held with
  | done => rfl
  | failed failure => rfl
  | piece bytes rest ih =>
      rw [Feed.recordsFrom, scanRecords_append, scanFeed]
      dsimp only
      rw [ih]
      rfl

/-- Only the first line of a file loses a byte order mark. -/
lemma linesOfRecords_of_ne_zero {last : LineNumber} (h : last ≠ 0) (records : List Bytes) :
    linesOfRecords last records =
      Text.numberFrom last.next (records.map fun r => Utf8.repair (Text.dropReturn r)) := by
  induction records generalizing last with
  | nil => rfl
  | cons record rest ih =>
      rw [linesOfRecords, ih (LineNumber.next_ne h).1, List.map_cons, Text.numberFrom, lineOfRecord,
        if_neg (LineNumber.next_ne h).2]

lemma linesOfRecords_zero (feed : Feed String) :
    linesOfRecords 0 feed.records = feed.sourceLines := by
  rw [Feed.sourceLines, Feed.lines]
  cases feed.records with
  | nil => rfl
  | cons first rest =>
      rw [linesOfRecords]
      show (1, _) :: linesOfRecords 1 rest = (1, _) :: Text.numberFrom (LineNumber.next 1) _
      rw [linesOfRecords_of_ne_zero (by decide)]
      rfl

/-! ## Calls -/

@[simp] lemma config_scanLines (lines : List (LineNumber × Bytes)) :
    (s.scanLines lines).2.config = s.config := by
  induction lines generalizing s with
  | nil => rfl
  | cons line rest ih => rw [scanLines_cons, ih, config_scanLine]

@[simp] lemma config_scanRecords (last : LineNumber) (records : List Bytes) :
    (s.scanRecords last records).2.2.config = s.config := by
  induction records generalizing s last with
  | nil => rfl
  | cons record rest ih => rw [scanRecords_cons, ih, config_scanLine]

@[simp] lemma config_scanFeed (last : LineNumber) (held : Bytes) (feed : Feed String) :
    (s.scanFeed last held feed).2.config = s.config := by
  induction feed generalizing s last held with
  | done => exact s.config_scanRecords last _
  | failed failure => rfl
  | piece bytes rest ih =>
      rw [scanFeed]
      dsimp only
      rw [ih, config_scanRecords]

/-- Every call keeps the configuration. -/
lemma config_call (c : Session.Call) : (s.call c).2.config = s.config := by
  cases c with
  | beginFile => rfl
  | finishFile => rfl
  | line number text => exact s.config_scanLine number text
  | lines lines => exact s.reset.config_scanLines lines
  | source text => exact s.reset.config_scanLines (Text.sourceLines text)
  | feed feed => exact s.reset.config_scanFeed 0 [] feed

lemma filterMap_tag?_events (config : Config) (readings : List Reading) :
    (Reading.events config readings).filterMap Event.tag? = Reading.tags config readings := by
  rw [Reading.events, Reading.tags, List.filterMap_filterMap]
  exact List.filterMap_congr fun r _ => r.bind_tag?_event? config

/-- Answers look the same if they have the same events and failures and leave the same owner. -/
lemma seen_eq {answer : Reply × Scanner} {answer' : Session.Reply × Session}
    (hsession : answer.2.session = answer'.2)
    (hevents : answer.1.events = Reading.events answer'.2.config answer'.1.readings)
    (hfailure : answer.1.failure = answer'.1.failure) : seen answer = Session.seen answer' := by
  rw [seen, Session.seen, hevents, filterMap_tag?_events, hfailure, ← hsession]
  rfl

lemma session_call (c : Session.Call) : (s.call c).2.session = (s.session.call c).2 := by
  have hconfig := s.config_call c
  cases c with
  | line number text => exact (s.scanLine_spec number text).2
  | _ => exact congrArg (Session.mk · none) hconfig

/-- A whole file is scanned as by a new session. -/
lemma events_scanLines_reset (lines : List (LineNumber × Bytes)) :
    (s.reset.scanLines lines).1 = Reading.events s.config (Reading.ofLines s.config none lines) :=
  s.reset.events_scanLines lines

/-- A call is answered as by a session, whatever the buffers hold. -/
lemma seen_call (c : Session.Call) : seen (s.call c) = Session.seen (s.session.call c) := by
  refine seen_eq (s.session_call c) ?_ ?_
  · cases c with
    | beginFile => rfl
    | finishFile => rfl
    | line number text =>
        show (s.scanLine number text).1.toList = Reading.events s.config [_]
        rw [(s.scanLine_spec number text).1, Reading.events_cons]
        exact (List.append_nil _).symm
    | lines lines => exact s.events_scanLines_reset lines
    | source text => exact s.events_scanLines_reset (Text.sourceLines text)
    | feed feed =>
        show (s.reset.scanFeed 0 [] feed).1.events = Reading.events s.config _
        rw [reply_scanFeed]
        show (s.reset.scanRecords 0 feed.records).1 = _
        rw [events_scanRecords, linesOfRecords_zero]
        exact s.events_scanLines_reset feed.sourceLines
  · cases c with
    | feed feed =>
        show (s.reset.scanFeed 0 [] feed).1.failure = _
        rw [reply_scanFeed]
        rfl
    | _ => rfl

/-- A run is answered as by a session, whatever the buffers hold. -/
lemma seen_run (calls : List Session.Call) :
    (s.run calls).map seen = (s.session.run calls).map Session.seen := by
  induction calls generalizing s with
  | nil => rfl
  | cons c rest ih =>
      rw [run, Session.run, List.map_cons, List.map_cons, seen_call, ih, session_call]

/-! ## Runs -/

/-- The scanner after some calls. -/
def after (calls : List Session.Call) : Scanner := calls.foldl (fun t c => (t.call c).2) s

lemma after_concat (calls : List Session.Call) (c : Session.Call) :
    s.after (calls ++ [c]) = ((s.after calls).call c).2 := by
  rw [after, List.foldl_append]
  rfl

lemma config_after (calls : List Session.Call) : (s.after calls).config = s.config := by
  induction calls using List.reverseRecOn with
  | nil => rfl
  | append_singleton calls c ih => rw [after_concat, config_call, ih]

lemma run_append (a b : List Session.Call) : s.run (a ++ b) = s.run a ++ (s.after a).run b := by
  induction a generalizing s with
  | nil => rfl
  | cons c rest ih =>
      rw [List.cons_append, run, ih]
      rfl

lemma length_run (calls : List Session.Call) : (s.run calls).length = calls.length := by
  induction calls generalizing s with
  | nil => rfl
  | cons c rest ih => rw [run, List.length_cons, ih, List.length_cons]

/-- A call is answered by the scanner after the calls before it. -/
lemma getElem?_run (before rest : List Session.Call) (c : Session.Call) :
    (s.run (before ++ c :: rest))[before.length]? = some ((s.after before).call c) := by
  rw [run_append, List.getElem?_append_right (s.length_run before).le, length_run, Nat.sub_self]
  rfl

lemma getLast?_run (before : List Session.Call) (c : Session.Call) :
    (s.run (before ++ [c])).getLast? = some ((s.after before).call c) := by
  rw [run_append]
  exact List.getLast?_concat

/-! ## Isolation -/

/-- Every call but the one that scans a single line is answered as by a new scanner, and leaves
one behind. -/
lemma call_of_not_isLine {c : Session.Call} (h : c.isLine = false) :
    s.call c = call { config := s.config } c ∧ (s.call c).2 = { config := s.config } := by
  have hnew : (s.call c).2 = { config := (s.call c).2.config } := by
    cases c with
    | line number text => cases h
    | _ => rfl
  constructor
  · cases c with
    | line number text => cases h
    | _ => rfl
  · rw [hnew, config_call]

/-- Only the lines since the last other call count. -/
lemma after_rtakeWhile (config : Config) (calls : List Session.Call) :
    after { config } calls = after { config } (calls.rtakeWhile Session.Call.isLine) := by
  induction calls using List.reverseRecOn with
  | nil => rfl
  | append_singleton calls c ih =>
      cases hline : c.isLine with
      | true =>
          rw [List.rtakeWhile_concat_pos _ _ _ hline, after_concat, after_concat, ih]
      | false =>
          rw [List.rtakeWhile_concat_neg _ _ _ (by simp [hline]), after_concat,
            (call_of_not_isLine _ hline).2, config_after]
          rfl

/-- **Files do not see each other.**  The answers of a scanner are those of a session, whatever its
buffers hold.  Every call of a run is answered as if only the lines that were scanned one by one
since the last other call had come before it, and what can be seen of a session follows.  A call
that scans a whole file is answered as by a new scanner, and so is one that begins or ends a file;
no owner is left after it. -/
theorem run_isolated (config : Config) (calls : List Session.Call) :
    (∀ s : Scanner, (s.run calls).map seen = (s.session.run calls).map Session.seen) ∧
      ∀ before c rest, calls = before ++ c :: rest →
        (run { config } calls)[before.length]? =
            (run { config } (before.rtakeWhile Session.Call.isLine ++ [c])).getLast? ∧
          ((Session.run { config } calls).map Session.seen)[before.length]? =
            ((Session.run { config } (before.rtakeWhile Session.Call.isLine ++ [c])).map
              Session.seen).getLast? ∧
          (c.isLine = false →
            (run { config } calls)[before.length]? = some (call { config } c) ∧
              (call { config } c).2.owner? = none) := by
  refine ⟨fun s => s.seen_run calls, ?_⟩
  rintro before c rest rfl
  have hreplay : (run { config } (before ++ c :: rest))[before.length]? =
      (run { config } (before.rtakeWhile Session.Call.isLine ++ [c])).getLast? := by
    rw [getElem?_run, getLast?_run, ← after_rtakeWhile]
  have hsession : ∀ calls, (Session.run { config } calls).map Session.seen =
      (run { config } calls).map seen := fun calls => (seen_run { config } calls).symm
  refine ⟨hreplay, ?_, fun hline => ?_⟩
  · rw [hsession, hsession, List.getElem?_map, List.getLast?_map, hreplay]
  · obtain ⟨hcall, -⟩ := call_of_not_isLine (after { config } before) hline
    obtain ⟨-, hnew⟩ := call_of_not_isLine { config } hline
    rw [getElem?_run, hcall, config_after, hnew]
    exact ⟨rfl, rfl⟩

/-- A name is still in its buffer when it has nothing to do with the line any more. -/
example : (run { config := .standard } [.line 1 (Bytes.ofString "def total(items)"),
    .line 2 (Bytes.ofString "done")]).getLast? =
      some ({ events := [.unknownWord 2 (Bytes.ofString "done")] },
        { config := .standard, word := Bytes.ofString "done",
          name := Bytes.ofString "total" }) := by
  decide

end Scanner

end ElixirTags

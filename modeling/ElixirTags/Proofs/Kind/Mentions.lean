import ElixirTags.Kind.Spec
import Mathlib.Data.List.Basic
import Mathlib.Tactic.Lemma

/-!
# The last mention of a kind

A kind spec is a row of items: signs, letters, names in braces and stars.  `KindSpec.Reads` says
what the items of a text are, whether they mean anything or not.  Every text has such a row, and the
reader's tokens are those of its items (`KindSpec.exists_reads_readFrom`); no text has two
(`KindSpec.Reads.unique`).

A spec whose items all mean something puts every kind where its last mention does, in the mode of
the last sign before that.  Kinds that are not mentioned stay as they were if the spec begins with a
sign, and are off otherwise.  A spec with a faulty item has the fault of the first one, and the set
in use stays (`KindSet.edit_last_mention`).
-/

namespace ElixirTags

namespace KindSpec

/-! ## The items of a text -/

/-- A part of a spec's text, whether it means anything or not. -/
inductive Item where
  | plus
  | minus
  | every
  | letter (c : Char)
  /-- A name in braces. -/
  | braced (name : String)
  /-- A brace that is not closed, and all that follows it. -/
  | unclosed (text : String)

/-- The items of a text, read from left to right.  A name goes up to the first closing brace. -/
inductive Reads : List Char → List Item → Prop
  | nil : Reads [] []
  | plus {rest : List Char} {items : List Item} : Reads rest items →
    Reads ('+' :: rest) (.plus :: items)
  | minus {rest : List Char} {items : List Item} : Reads rest items →
    Reads ('-' :: rest) (.minus :: items)
  | every {rest : List Char} {items : List Item} : Reads rest items →
    Reads ('*' :: rest) (.every :: items)
  | braced {name : String} {rest : List Char} {items : List Item} : '\x7d' ∉ name.toList →
    Reads rest items → Reads ('\x7b' :: (name.toList ++ '\x7d' :: rest)) (.braced name :: items)
  | unclosed {text : String} : '\x7d' ∉ text.toList →
    Reads ('\x7b' :: text.toList) [.unclosed text]
  | letter {c : Char} {rest : List Char} {items : List Item} : c ∉ ['+', '-', '*', '\x7b'] →
    Reads rest items → Reads (c :: rest) (.letter c :: items)

/-- What follows an open brace is a name and a rest, or there is no closing brace in it. -/
lemma Reads.brace_cases {rest : List Char} {items : List Item} (h : Reads ('\x7b' :: rest) items) :
    (∃ (name : String) (after : List Char) (others : List Item),
      rest = name.toList ++ '\x7d' :: after ∧ '\x7d' ∉ name.toList ∧ Reads after others ∧
        items = .braced name :: others) ∨
      ∃ text : String, rest = text.toList ∧ '\x7d' ∉ rest ∧ items = [.unclosed text] := by
  cases h with
  | braced hname hafter => exact .inl ⟨_, _, _, rfl, hname, hafter, rfl⟩
  | unclosed htext => exact .inr ⟨_, rfl, htext, rfl⟩
  | letter hc => simp at hc

/-- The first closing brace ends a name. -/
lemma eq_of_append_brace {name name' after after' : List Char} (hname : '\x7d' ∉ name)
    (hname' : '\x7d' ∉ name') (h : name ++ '\x7d' :: after = name' ++ '\x7d' :: after') :
    name = name' ∧ after = after' := by
  obtain ⟨more, rfl, hmore⟩ | ⟨more, rfl, hmore⟩ := List.append_eq_append_iff.1 h
  all_goals
    cases more with
    | nil => simpa [eq_comm] using hmore
    | cons c more =>
        obtain ⟨rfl, -⟩ := List.cons.inj hmore
        simp at hname hname'

/-- A text is read in one way only. -/
lemma Reads.unique {text : List Char} {items others : List Item} (h : Reads text items)
    (hothers : Reads text others) : others = items := by
  induction h generalizing others with
  | nil => cases hothers; rfl
  | plus _ ih =>
      cases hothers with
      | plus hrest => rw [ih hrest]
      | letter hc => simp at hc
  | minus _ ih =>
      cases hothers with
      | minus hrest => rw [ih hrest]
      | letter hc => simp at hc
  | every _ ih =>
      cases hothers with
      | every hrest => rw [ih hrest]
      | letter hc => simp at hc
  | braced hname _ ih =>
      obtain ⟨name', after', others', hrest, hname', hafter', rfl⟩ | ⟨_, _, hopen, -⟩ :=
        hothers.brace_cases
      · obtain ⟨hnames, rfl⟩ := eq_of_append_brace hname hname' hrest
        rw [ih hafter', String.toList_inj.1 hnames]
      · simp at hopen
  | unclosed htext =>
      obtain ⟨_, _, _, hrest, -⟩ | ⟨_, hrest, -, rfl⟩ := hothers.brace_cases
      · simp [hrest] at htext
      · rw [String.toList_inj.1 hrest]
  | letter hc _ ih =>
      cases hothers with
      | letter _ hrest => rw [ih hrest]
      | _ => simp at hc

/-! ## What items mean -/

/-- What is wrong with an item. -/
def Item.fault? : Item → Option Fault
  | plus | minus | every => none
  | letter c => if ∃ k ∈ Kind.all, k.code = c then none else some (.unknownLetter c)
  | braced name => if ∃ k ∈ Kind.all, k.name = name then none else some (.unknownName name)
  | unclosed text => some (.unterminatedName text)

/-- The item mentions the kind. -/
def Item.Covers (k : Kind) : Item → Prop
  | every => True
  | letter c => k.code = c
  | braced name => k.name = name
  | plus | minus | unclosed _ => False

/-- The mode that a sign sets. -/
def Item.mode? : Item → Option Bool
  | plus => some true
  | minus => some false
  | every | letter _ | braced _ | unclosed _ => none

/-- The mode after items that are read in the mode `on`: the last sign has set it. -/
def modeAfter (on : Bool) (items : List Item) : Bool :=
  (items.filterMap Item.mode?).getLast?.getD on

lemma modeAfter_cons (on : Bool) (i : Item) (items : List Item) :
    modeAfter on (i :: items) = modeAfter (i.mode?.getD on) items := by
  cases h : i.mode? <;> simp [modeAfter, h, List.getLast?_cons]

/-- The kind is where its last mention puts it if the items are read in the mode `on`, and where it
was if they do not mention it. -/
structure Settles (on : Bool) (items : List Item) (k : Kind) (was now : Prop) : Prop where
  last : ∀ before i after, items = before ++ i :: after → i.Covers k →
    (∀ j ∈ after, ¬ j.Covers k) → (now ↔ modeAfter on before = true)
  unmentioned : (∀ i ∈ items, ¬ i.Covers k) → (now ↔ was)

lemma Settles.nil (on : Bool) (k : Kind) (p : Prop) : Settles on [] k p p where
  last before i after h := by simp at h
  unmentioned _ := Iff.rfl

lemma Settles.cons {on : Bool} {i : Item} {items : List Item} {k : Kind} {was between now : Prop}
    (hcovers : i.Covers k → (between ↔ on = true)) (hkeeps : ¬ i.Covers k → (between ↔ was))
    (h : Settles (i.mode?.getD on) items k between now) : Settles on (i :: items) k was now where
  last before j after hitems hj hafter := by
    cases before with
    | nil =>
        -- the rest does not mention the kind, so it stays where this item has put it
        obtain ⟨rfl, rfl⟩ := List.cons.inj hitems
        exact (h.unmentioned hafter).trans (hcovers hj)
    | cons _ before =>
        obtain ⟨rfl, hrest⟩ := List.cons.inj hitems
        rw [modeAfter_cons]
        exact h.last before j after hrest hj hafter
  unmentioned hnone :=
    (h.unmentioned fun j hj => hnone j (List.mem_cons_of_mem _ hj)).trans
      (hkeeps (hnone i List.mem_cons_self))

/-! ## Items and tokens -/

/-- The token of an item. -/
def Item.token : Item → Except Fault Token
  | plus => .ok .plus
  | minus => .ok .minus
  | every => .ok .every
  | letter c => match Kind.ofCode? c with
    | some k => .ok (.kind k)
    | none => .error (.unknownLetter c)
  | braced name => ofBraced name.toList
  | unclosed text => .error (.unterminatedName text)

lemma cons_eq_bind (t : Except Fault Token) (ts : Except Fault (List Token)) :
    cons t ts = do return (← t) :: (← ts) := by
  cases t <;> cases ts <;> rfl

/-- Every character but the brace is an item. -/
lemma Reads.exists_cons {c : Char} {rest : List Char} {items : List Item} (hc : c ≠ '\x7b')
    (h : Reads rest items) : ∃ i : Item, Reads (c :: rest) (i :: items) ∧ ofChar c = i.token := by
  by_cases hplus : c = '+'
  · exact ⟨.plus, hplus ▸ .plus h, by simp [hplus, ofChar, Item.token]⟩
  by_cases hminus : c = '-'
  · exact ⟨.minus, hminus ▸ .minus h, by simp [hminus, ofChar, Item.token]⟩
  by_cases hevery : c = '*'
  · exact ⟨.every, hevery ▸ .every h, by simp [hevery, ofChar, Item.token]⟩
  refine ⟨.letter c, .letter (by simp [hplus, hminus, hevery, hc]) h, ?_⟩
  cases hkind : Kind.ofCode? c <;> simp [ofChar, Item.token, hplus, hminus, hevery, hkind]

/-- The tokens are those of the items, and the fault is that of the first item that has one.  The
induction is over the reader, which may be inside a name. -/
lemma exists_reads_readFrom (held : Option (List Char)) (text : List Char)
    (hheld : ∀ name ∈ held, '\x7d' ∉ name) :
    ∃ items, Reads (held.elim text fun name => '\x7b' :: (name ++ text)) items ∧
      readFrom held text = items.mapM Item.token := by
  fun_induction readFrom held text with
  | case1 => exact ⟨[], .nil, rfl⟩
  | case2 held =>
      refine ⟨[.unclosed (String.ofList held)], ?_, rfl⟩
      have hreads : Reads ('\x7b' :: (String.ofList held).toList) _ :=
        .unclosed (by simpa using hheld)
      simpa using hreads
  | case3 rest ih =>
      obtain ⟨items, hitems, htokens⟩ := ih (by simp)
      exact ⟨items, by simpa using hitems, htokens⟩
  | case4 c rest hbrace ih =>
      obtain ⟨items, hitems, htokens⟩ := ih (by simp)
      obtain ⟨i, hreads, htoken⟩ := hitems.exists_cons hbrace
      exact ⟨i :: items, hreads, by rw [cons_eq_bind, htoken, htokens, List.mapM_cons]⟩
  | case5 held rest ih =>
      obtain ⟨items, hitems, htokens⟩ := ih (by simp)
      refine ⟨.braced (String.ofList held) :: items, ?_, ?_⟩
      · have hreads : Reads ('\x7b' :: ((String.ofList held).toList ++ '\x7d' :: rest)) _ :=
          .braced (by simpa using hheld) hitems
        simpa using hreads
      · rw [cons_eq_bind, htokens, List.mapM_cons, Item.token, String.toList_ofList]
  | case6 held c rest hbrace ih =>
      obtain ⟨items, hitems, htokens⟩ := ih (by simpa [eq_comm] using ⟨hheld held rfl, hbrace⟩)
      exact ⟨items, by simpa using hitems, htokens⟩

lemma Item.token_eq_error {i : Item} {fault : Fault} (h : i.fault? = some fault) :
    i.token = .error fault := by
  cases i with
  | plus | minus | every => simp [fault?] at h
  | letter c =>
      have hnone : ¬ ∃ k ∈ Kind.all, k.code = c := fun hk => by simp [fault?, hk] at h
      have hfind : Kind.ofCode? c = none := by
        simpa [Kind.ofCode?, List.find?_eq_none] using hnone
      simpa [fault?, hnone, token, hfind] using h
  | braced name =>
      have hnone : ¬ ∃ k ∈ Kind.all, k.name = name := fun hk => by simp [fault?, hk] at h
      have hfind : Kind.ofName? name = none := by
        simpa [Kind.ofName?, List.find?_eq_none] using hnone
      simpa [fault?, hnone, token, ofBraced, hfind] using h
  | unclosed text => simpa [fault?, token] using h

/-- An item without fault has a token, and that moves the kinds that the item mentions. -/
lemma Item.exists_token_eq_ok {i : Item} (h : i.fault? = none) :
    ∃ t, i.token = .ok t ∧ ∀ (on : Bool) (s : KindSet) (ts : List Token), ∃ between,
      run on s (t :: ts) = run (i.mode?.getD on) between ts ∧
        ∀ k, (i.Covers k → (k ∈ between ↔ on = true)) ∧ (¬ i.Covers k → (k ∈ between ↔ k ∈ s)) := by
  cases i with
  | plus => exact ⟨.plus, rfl, fun _ s _ => ⟨s, rfl, by simp [Covers]⟩⟩
  | minus => exact ⟨.minus, rfl, fun _ s _ => ⟨s, rfl, by simp [Covers]⟩⟩
  | every =>
      refine ⟨.every, rfl, fun on s _ => ⟨s.switch .full on, rfl, fun k => ?_⟩⟩
      simp [Covers, KindSet.mem_switch]
  | letter c =>
      obtain ⟨k, -, rfl⟩ : ∃ k ∈ Kind.all, k.code = c := by simpa [fault?] using h
      refine ⟨.kind k, by simp [token, Kind.ofCode?_code],
        fun on s _ => ⟨s.switch (.single k) on, rfl, fun j => ?_⟩⟩
      simp +contextual [Covers, Kind.code_inj, KindSet.mem_switch]
  | braced name =>
      obtain ⟨k, -, rfl⟩ : ∃ k ∈ Kind.all, k.name = name := by simpa [fault?] using h
      refine ⟨.kind k, by simp [token, ofBraced, Kind.ofName?_name],
        fun on s _ => ⟨s.switch (.single k) on, rfl, fun j => ?_⟩⟩
      simp +contextual [Covers, Kind.name_inj, KindSet.mem_switch]
  | unclosed text => simp [fault?] at h

/-! ## Runs -/

/-- Items without fault have tokens, and a run of these settles every kind. -/
lemma exists_mapM_token_eq_ok {items : List Item} (h : ∀ i ∈ items, i.fault? = none) :
    ∃ ts, items.mapM Item.token = .ok ts ∧
      ∀ (on : Bool) (s : KindSet) (k : Kind), Settles on items k (k ∈ s) (k ∈ run on s ts) := by
  induction items with
  | nil => exact ⟨[], rfl, fun on s k => .nil on k _⟩
  | cons i items ih =>
      obtain ⟨ts, hts, hrun⟩ := ih fun j hj => h j (List.mem_cons_of_mem _ hj)
      obtain ⟨t, ht, hstep⟩ := Item.exists_token_eq_ok (h i List.mem_cons_self)
      refine ⟨t :: ts, by rw [List.mapM_cons, ht, hts]; rfl, fun on s k => ?_⟩
      obtain ⟨between, hbetween, hmem⟩ := hstep on s ts
      rw [hbetween]
      exact .cons (hmem k).1 (hmem k).2 (hrun _ between k)

lemma mapM_token_eq_error {items : List Item} {fault : Fault}
    (h : items.findSome? Item.fault? = some fault) : items.mapM Item.token = .error fault := by
  obtain ⟨before, i, after, rfl, hi, hbefore⟩ := List.findSome?_eq_some_iff.1 h
  obtain ⟨ts, hts, -⟩ := exists_mapM_token_eq_ok hbefore
  rw [List.mapM_append, hts, List.mapM_cons, Item.token_eq_error hi]
  rfl

end KindSpec

namespace KindSet

open KindSpec

lemma run_edit (text : String) (s : KindSet) :
    (edit text).run.run s = match s.applySpec text with
      | .ok after => (.ok (), after)
      | .error fault => (.error fault, s) := by
  have hedit : (edit text).run.run s = ExceptT.run (m := StateM KindSet)
      (match s.applySpec text with
        | .ok after => set after
        | .error fault => throw fault) s := rfl
  rw [hedit]
  cases s.applySpec text <;> rfl

/-- A spec is applied to the set in use if it begins with a sign, to the empty set otherwise. -/
lemma mem_start_iff {text : List Char} {s : KindSet} {k : Kind} :
    k ∈ (if isEdit text then s else ∅) ↔
      (text.head? = some '+' ∨ text.head? = some '-') ∧ k ∈ s := by
  cases text with
  | nil => simp [isEdit]
  | cons c rest => by_cases hsign : c = '+' ∨ c = '-' <;> simp [isEdit, hsign]

/-- **The last mention wins.**  Every text has one row of items, and for each set in use: the spec
is applied if and only if no item has a fault; each kind is then where its last mention puts it, and
one that is not mentioned is on if it was and the spec begins with a sign; otherwise the answer is
the first item's fault, whatever the set, and the set stays. -/
theorem edit_last_mention (text : String) :
    ∃ items, (∀ others, Reads text.toList others ↔ others = items) ∧ ∀ s : KindSet,
      ((∃ after, (edit text).run.run s = (.ok (), after)) ↔ ∀ i ∈ items, i.fault? = none) ∧
      (∀ after, (edit text).run.run s = (.ok (), after) → ∀ k,
        Settles true items k ((text.toList.head? = some '+' ∨ text.toList.head? = some '-') ∧ k ∈ s)
          (k ∈ after)) ∧
      ∀ fault, items.findSome? Item.fault? = some fault →
        (edit text).run.run s = (.error fault, s) := by
  obtain ⟨items, hreads, htokens⟩ := exists_reads_readFrom none text.toList (by simp)
  refine ⟨items, fun others => ⟨hreads.unique, fun h => h ▸ hreads⟩, fun s => ?_⟩
  rw [run_edit]
  cases hfault : items.findSome? Item.fault? with
  | none =>
      have hsound := List.findSome?_eq_none_iff.1 hfault
      obtain ⟨ts, hts, hrun⟩ := exists_mapM_token_eq_ok hsound
      have happly : s.applySpec text = .ok (run true (if isEdit text.toList then s else ∅) ts) := by
        rw [applySpec, parse, readTokens, htokens, hts]
        rfl
      rw [happly]
      refine ⟨⟨fun _ => hsound, fun _ => ⟨_, rfl⟩⟩, ?_, by simp⟩
      intro after hafter k
      cases hafter
      rw [← mem_start_iff]
      exact hrun true _ k
  | some fault =>
      obtain ⟨i, hi, hfaulty⟩ := List.exists_of_findSome?_eq_some hfault
      have happly : s.applySpec text = .error fault := by
        rw [applySpec, parse, readTokens, htokens, mapM_token_eq_error hfault]
        rfl
      rw [happly]
      refine ⟨⟨fun ⟨_, hok⟩ => ?_, fun hsound => ?_⟩, fun _ hok => ?_, ?_⟩
      · cases hok
      · simp [hsound i hi] at hfaulty
      · cases hok
      · intro _ hfirst
        cases hfirst
        rfl

end KindSet

end ElixirTags

import ElixirTags.Program.Run
import ElixirTags.Proofs.FileSystem.Frame
import ElixirTags.Proofs.Program.Contents

/-!
# What a run leaves behind

The exit code of a run tells a faulty command line from a file that cannot be used, and if it is not
0 then nothing has happened: nothing went to the standard output, and the file system is what it
was.  A run that ends well has changed at most one file, the one that the target leads to
(`Program.run_effects`).  A standard output that refuses the tag file is one of the things that a
run may fail for.

A run ends in one of four ways (`Program.Ends`), and all of this is read off them.  What a target is
follows from the command line: the last option that names one decides, and without such an option
it is the file `tags` (`Request.target_of_finish`).
-/

namespace ElixirTags

/-! ## The target -/

/-- The target that an argument names, if it is an option that names one. -/
def Switch.target? : Except UsageFault Switch → Option Target
  | .ok (.target t) => some t
  | _ => none

/-- The target that a command line asks for: the last one that is named, or the file `tags`. -/
def Target.ofCommandLine (arguments : List String) : Target :=
  ((Switch.ofArguments arguments).filterMap Switch.target?).getLast?.getD
    (.file (Bytes.ofString "tags"))

lemma Options.target_apply (o : Options) (switch : Switch) :
    (o.apply switch).target = (Switch.target? (.ok switch)).getD o.target := by
  cases switch <;> rfl

lemma Request.target_of_command {r : Request} {o : Options} (h : r.command = .ok (.generate o)) :
    o.target = r.options.target := by
  rw [command] at h
  split at h
  · cases h
  · split at h
    · cases h
    · split at h
      · cases h
      · cases h
        rfl

lemma Request.target_of_finish {switches : List (Except UsageFault Switch)} {r : Request}
    {o : Options} (h : r.finish switches = .ok (.generate o)) :
    o.target = (switches.filterMap Switch.target?).getLast?.getD r.options.target := by
  induction switches generalizing r with
  | nil => exact target_of_command h
  | cons first rest ih =>
      cases first with
      | error fault => cases h
      | ok switch =>
          -- help and the version end the reading, any other switch is applied
          have hrest : (r.apply switch).finish rest = .ok (.generate o) := by
            cases switch
            case help => cases h
            case version => cases h
            all_goals exact h
          have happly : (r.apply switch).options.target =
              (Switch.target? (.ok switch)).getD r.options.target := r.options.target_apply switch
          rw [ih hrest, happly, List.filterMap_cons]
          cases Switch.target? (.ok switch) with
          | none => rfl
          | some t =>
              rw [List.getLast?_cons]
              rfl

lemma Target.eq_ofCommandLine {arguments : List String} {o : Options}
    (h : Command.ofArguments arguments = .ok (.generate o)) :
    o.target = .ofCommandLine arguments :=
  Request.target_of_finish h

/-! ## Making a tag file -/

namespace Generation

variable {fs : FileSystem} {o : Options} {stdout : StandardOutput} {path : Path} {summary : Summary}
  {failure : AccessFailure}

lemma files_of_result_error (h : (generate fs o stdout).result = .error failure) :
    (generate fs o stdout).files = fs := by
  obtain ⟨events, heq⟩ := eq_failed_of_generate h
  rw [heq]
  rfl

lemma files_of_standardOutput (htarget : o.target = .standardOutput) :
    (generate fs o stdout).files = fs := by
  cases h : (generate fs o stdout).result with
  | error failure => exact files_of_result_error h
  | ok summary =>
      obtain ⟨sources, existing, -, -, -, hstore⟩ := exists_of_generate_ok h
      rw [htarget] at hstore
      cases stdout with
      | takes => exact (congrArg Prod.fst (Except.ok.inj hstore)).symm
      | refuses fault => cases hstore

/-- A run that ends well has stored a file at the place that its target leads to from then on, and
led to before if anything was there. -/
lemma exists_stored (htarget : o.target = .file path)
    (h : (generate fs o stdout).result = .ok summary) :
    ∃ place content, FileSystem.Stored fs (generate fs o stdout).files place content ∧
      (generate fs o stdout).files.locate path = .ok place ∧
      (fs.locate path = .ok place ∨ fs.locate path = .error .notFound) := by
  obtain ⟨sources, existing, -, -, -, hstore⟩ := exists_of_generate_ok h
  rw [htarget] at hstore
  obtain ⟨spot, hspot, hstored, hplace⟩ := FileSystem.exists_stored_of_write (write_of_store hstore)
  refine ⟨spot.location, _, hstored, hstored.locate_path hspot, ?_⟩
  rcases hplace with ⟨_, hlocate, -⟩ | ⟨hlocate, -⟩
  · exact .inl hlocate
  · exact .inr hlocate

/-- A tag file that is not UTF-8 cannot be merged. -/
lemma exists_failure_of_not_valid {content : Bytes} (happend : o.append = true)
    (htarget : o.target = .file path) (hread : fs.read path = .ok content)
    (hvalid : ¬ Utf8.Valid content) :
    ∃ failure, (generate fs o stdout).result = .error failure := by
  cases h : (generate fs o stdout).result with
  | error failure => exact ⟨failure, rfl⟩
  | ok summary =>
      obtain ⟨sources, existing, -, -, hexisting, -⟩ := exists_of_generate_ok h
      have hfault := FileSystem.readText_of_not_valid hread hvalid
      simp [existingText, happend, htarget, hfault] at hexisting

end Generation

/-! ## The program -/

namespace Program

/-- The ways in which a run on a file system ends. -/
inductive Ends (fs : FileSystem) (stdout : StandardOutput) :
    Except UsageFault Command → Outcome → Prop
  | misunderstood (fault : UsageFault) {outcome : Outcome} (hcode : outcome.exitCode = 2)
      (houtput : outcome.output = []) (hfiles : outcome.files = fs) :
      Ends fs stdout (.error fault) outcome
  | failed {o : Options} {failure : AccessFailure} {outcome : Outcome}
      (hresult : (generate fs o stdout).result = .error failure) (hcode : outcome.exitCode = 1)
      (houtput : outcome.output = []) (hcomplaint : outcome.complaint = complain failure.message)
      (hfiles : outcome.files = fs) : Ends fs stdout (.ok (.generate o)) outcome
  | made {o : Options} {summary : Summary} {outcome : Outcome}
      (hresult : (generate fs o stdout).result = .ok summary) (hcode : outcome.exitCode = 0)
      (hfiles : outcome.files = (generate fs o stdout).files) :
      Ends fs stdout (.ok (.generate o)) outcome
  | told {command : Command} {outcome : Outcome} (hcommand : ∀ o, command ≠ .generate o)
      (hcode : outcome.exitCode = 0) (hfiles : outcome.files = fs) :
      Ends fs stdout (.ok command) outcome

lemma ends_telling {fs : FileSystem} {stdout : StandardOutput} {command : Command}
    (hcommand : ∀ o, command ≠ .generate o) (text : String) :
    Ends fs stdout (.ok command) (.telling fs text) :=
  .told hcommand rfl rfl

lemma ends_run (fs : FileSystem) (arguments : List String) (logLevel : Option String)
    (stdout : StandardOutput) :
    Ends fs stdout (Command.ofArguments arguments) (run fs arguments logLevel stdout) := by
  rw [run]
  cases Command.ofArguments arguments with
  | error fault => exact Ends.misunderstood fault rfl rfl rfl
  | ok command =>
      cases command with
      | help => exact ends_telling (by simp) _
      | version => exact ends_telling (by simp) _
      | listMaps => exact ends_telling (by simp) _
      | listKinds o => exact ends_telling (by simp) _
      | generate o =>
          dsimp only
          cases hresult : (generate fs o stdout).result with
          | ok summary => exact .made hresult rfl rfl
          | error failure =>
              exact .failed hresult rfl rfl rfl (Generation.files_of_result_error hresult)

namespace Ends

variable {fs : FileSystem} {stdout : StandardOutput} {command : Except UsageFault Command}
  {outcome : Outcome} {o : Options} {path : Path} {content : Bytes}

lemma exitCode_eq_two_iff (h : Ends fs stdout command outcome) :
    outcome.exitCode = 2 ↔ ∃ fault, command = .error fault := by
  cases h with
  | misunderstood fault hcode => simp [hcode]
  | failed _ hcode => simp [hcode]
  | made _ hcode => simp [hcode]
  | told _ hcode => simp [hcode]

lemma exitCode_eq_one_iff (h : Ends fs stdout command outcome) :
    outcome.exitCode = 1 ↔ ∃ o, command = .ok (.generate o) ∧
      ∃ failure : AccessFailure, (generate fs o stdout).result = .error failure ∧
        outcome.complaint = complain failure.message := by
  cases h with
  | misunderstood fault hcode => simp [hcode]
  | failed hresult hcode _ hcomplaint => simp [hcode, hresult, hcomplaint]
  | made hresult hcode => simp [hcode, hresult]
  | told hcommand hcode => simp [hcode, hcommand]

lemma exitCode_cases (h : Ends fs stdout command outcome) :
    outcome.exitCode = 0 ∨ outcome.exitCode = 1 ∨ outcome.exitCode = 2 := by
  cases h with
  | misunderstood fault hcode => exact .inr (.inr hcode)
  | failed _ hcode => exact .inr (.inl hcode)
  | made _ hcode => exact .inl hcode
  | told _ hcode => exact .inl hcode

lemma of_exitCode_ne_zero (h : Ends fs stdout command outcome) (hcode : outcome.exitCode ≠ 0) :
    outcome.output = [] ∧ outcome.files = fs := by
  cases h with
  | misunderstood fault _ houtput hfiles => exact ⟨houtput, hfiles⟩
  | failed _ _ houtput _ hfiles => exact ⟨houtput, hfiles⟩
  | made _ hzero => exact absurd hzero hcode
  | told _ hzero => exact absurd hzero hcode

lemma exitCode_of_not_valid (h : Ends fs stdout (.ok (.generate o)) outcome)
    (happend : o.append = true) (htarget : o.target = .file path)
    (hread : fs.read path = .ok content) (hvalid : ¬ Utf8.Valid content) :
    outcome.exitCode = 1 := by
  obtain ⟨failure, hfailure⟩ :=
    Generation.exists_failure_of_not_valid happend htarget hread hvalid
  cases h with
  | failed _ hcode => exact hcode
  | made hresult =>
      rw [hfailure] at hresult
      cases hresult
  | told hcommand => exact absurd rfl (hcommand o)

lemma exists_stored (h : Ends fs stdout (.ok (.generate o)) outcome)
    (htarget : o.target = .file path) (hcode : outcome.exitCode = 0) :
    ∃ place content, FileSystem.Stored fs outcome.files place content ∧
      outcome.files.locate path = .ok place ∧
      (fs.locate path = .ok place ∨ fs.locate path = .error .notFound) := by
  cases h with
  | failed _ hone =>
      rw [hone] at hcode
      cases hcode
  | made hresult _ hfiles =>
      rw [hfiles]
      exact Generation.exists_stored htarget hresult
  | told hcommand => exact absurd rfl (hcommand o)

lemma files_eq (h : Ends fs stdout command outcome)
    (htarget : ∀ o path, command = .ok (.generate o) → o.target ≠ .file path) :
    outcome.files = fs := by
  cases h with
  | misunderstood _ _ _ hfiles => exact hfiles
  | failed _ _ _ _ hfiles => exact hfiles
  | @made o _ _ _ _ hfiles =>
      rw [hfiles]
      apply Generation.files_of_standardOutput
      cases ho : o.target with
      | file path => exact absurd ho (htarget o path rfl)
      | standardOutput => rfl
  | told _ _ hfiles => exact hfiles

end Ends

/-- What holds of every run of the program. -/
structure Effects (fs : FileSystem) (arguments : List String) (stdout : StandardOutput)
    (outcome : Outcome) : Prop where
  code : outcome.exitCode = 0 ∨ outcome.exitCode = 1 ∨ outcome.exitCode = 2
  /-- The exit code 2 says that the command line cannot be understood. -/
  usage : outcome.exitCode = 2 ↔ ∃ fault, Command.ofArguments arguments = .error fault
  /-- The exit code 1 says that a file cannot be used, and the program says which. -/
  access : outcome.exitCode = 1 ↔ ∃ o, Command.ofArguments arguments = .ok (.generate o) ∧
    ∃ failure : AccessFailure, (generate fs o stdout).result = .error failure ∧
      outcome.complaint = complain failure.message
  /-- A run that fails puts nothing out and changes nothing. -/
  failed : outcome.exitCode ≠ 0 → outcome.output = [] ∧ outcome.files = fs
  /-- A tag file that is not UTF-8 cannot be merged, and stays as it is. -/
  damaged (o : Options) (path : Path) (content : Bytes) :
    Command.ofArguments arguments = .ok (.generate o) → o.append = true → o.target = .file path →
      fs.read path = .ok content → ¬ Utf8.Valid content →
        outcome.exitCode = 1 ∧ outcome.files.read path = .ok content
  target (o : Options) : Command.ofArguments arguments = .ok (.generate o) →
    o.target = .ofCommandLine arguments
  /-- A tag file that is made is stored where the target leads to, and nothing else changes. -/
  stored (o : Options) (path : Path) : Command.ofArguments arguments = .ok (.generate o) →
    o.target = .file path → outcome.exitCode = 0 →
      ∃ place content, FileSystem.Stored fs outcome.files place content ∧
        outcome.files.locate path = .ok place ∧
        (fs.locate path = .ok place ∨ fs.locate path = .error .notFound)
  /-- Nothing changes if no tag file is to be made, or if it goes to the standard output. -/
  unchanged : (∀ o path, Command.ofArguments arguments = .ok (.generate o) →
    o.target ≠ .file path) → outcome.files = fs

/-- **A run that fails changes nothing**, and one that ends well changes at most the file that its
target leads to. -/
theorem run_effects (fs : FileSystem) (arguments : List String) (logLevel : Option String)
    (stdout : StandardOutput) :
    Effects fs arguments stdout (run fs arguments logLevel stdout) := by
  have hends := ends_run fs arguments logLevel stdout
  refine ⟨hends.exitCode_cases, hends.exitCode_eq_two_iff, hends.exitCode_eq_one_iff,
    hends.of_exitCode_ne_zero, ?_, fun o => Target.eq_ofCommandLine, ?_, hends.files_eq⟩
  · intro o path content hcommand happend htarget hread hvalid
    have hcode : (run fs arguments logLevel stdout).exitCode = 1 :=
      (hcommand ▸ hends).exitCode_of_not_valid happend htarget hread hvalid
    refine ⟨hcode, ?_⟩
    rw [(hends.of_exitCode_ne_zero (by rw [hcode]; decide)).2]
    exact hread
  · intro o path hcommand htarget hcode
    exact (hcommand ▸ hends).exists_stored htarget hcode

/-! ## Two runs -/

namespace Effects

/-- A source and a tag file that is not UTF-8. -/
def files : FileSystem where
  root := [(Bytes.ofString "a.ex", .file (Bytes.ofString "def f\n")),
    (Bytes.ofString "tags", .file [0xFF])]
  workingDirectory := []

end Effects

/-- The tag file stays as it is if it is to be merged, and otherwise it is the only file that
changes. -/
theorem run_effects_damaged :
    (run Effects.files ["-a", "a.ex"]).exitCode = 1 ∧
      (run Effects.files ["-a", "a.ex"]).files = Effects.files ∧
      (run Effects.files ["a.ex"]).exitCode = 0 ∧
      ∃ place content, FileSystem.Stored Effects.files (run Effects.files ["a.ex"]).files
        place content ∧ Effects.files.locate (Bytes.ofString "tags") = .ok place := by
  have hmerge : Command.ofArguments ["-a", "a.ex"] = .ok (.generate
      { inputs := [Bytes.ofString "a.ex"], append := true }) := by decide +kernel
  have hmake : Command.ofArguments ["a.ex"] = .ok (.generate
      { inputs := [Bytes.ofString "a.ex"] }) := by decide +kernel
  have htags : Effects.files.read (Bytes.ofString "tags") = .ok [0xFF] := rfl
  have hmerged := run_effects Effects.files ["-a", "a.ex"] none .takes
  obtain ⟨hfailed, -⟩ := hmerged.damaged _ _ _ hmerge rfl rfl htags (by decide)
  have hmade : (run Effects.files ["a.ex"]).exitCode = 0 := by decide +kernel
  obtain ⟨place, content, hstored, -, hplace⟩ :=
    (run_effects Effects.files ["a.ex"] none .takes).stored _ _ hmake rfl hmade
  refine ⟨hfailed, (hmerged.failed (by rw [hfailed]; decide)).2, hmade, place, content, hstored, ?_⟩
  rcases hplace with hplace | hmissing
  · exact hplace
  · cases hmissing

/-- A tag file that the standard output refuses. -/
example :
    let outcome := run Effects.files ["-o", "-", "a.ex"] none (.refuses .noSpace)
    outcome.exitCode = 1 ∧ outcome.output = [] ∧ outcome.complaint =
      "extags: cannot access '<stdout>': No space left on device (os error 28)\n" := by
  decide +kernel

end Program

end ElixirTags

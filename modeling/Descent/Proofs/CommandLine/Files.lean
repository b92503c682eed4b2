import Descent.CommandLine.Report
import Descent.Proofs.Json.Strict
import Mathlib

/-!
The files of a run are reported one by one, whatever stands in the others. A file that fails leaves
its complaint on standard error alone, and the status is that of the worst file.
-/

namespace Descent.CommandLine

variable {options : Options} {read : String → Except ReadFault (List UInt8)}
variable {elapsed : String → Nat} {path text : String} {paths others : List String} {value : Json}

def HoldsText (read : String → Except ReadFault (List UInt8)) (path text : String) : Prop :=
  ∃ bytes, read path = .ok bytes ∧ decodeFile bytes = .ok text

def Accepts (options : Options) (read : String → Except ReadFault (List UInt8)) (path : String)
    (value : Json) : Prop :=
  ∃ text, HoldsText read path text ∧ Json.read options.strict text = .ok value

/-- No argument of a program holds a null character. There need not be a file under the path, but
the text of one is not nested beyond what the recursion limit leaves room for. -/
structure Tractable (options : Options) (read : String → Except ReadFault (List UInt8))
    (path : String) : Prop where
  noNull : path.toList.contains '\x00' = false
  shallow : ∀ text, HoldsText read path text →
    Json.readWithin options.depth options.strict text ≠ .error .tooDeep

theorem HoldsText.unique {other : String} (holds : HoldsText read path text)
    (holdsToo : HoldsText read path other) : text = other := by
  obtain ⟨bytes, found, decoded⟩ := holds
  obtain ⟨bytes', foundToo, decodedToo⟩ := holdsToo
  rw [found] at foundToo
  cases foundToo
  rw [decoded] at decodedToo
  cases decodedToo
  rfl

theorem reportFile_of_holdsText (holds : HoldsText read path text) :
    reportFile options path (read path) = reportText options path text := by
  obtain ⟨bytes, found, decoded⟩ := holds
  rw [found, reportFile, decoded]

theorem reportFile_of_unreadable (unreadable : ∀ text, ¬HoldsText read path text) :
    ∃ complaint, reportFile options path (read path) = .failed complaint := by
  rw [reportFile.eq_def]
  split
  · exact ⟨_, rfl⟩
  · rename_i bytes found
    split
    · exact ⟨_, rfl⟩
    · rename_i text decoded
      exact absurd ⟨bytes, found, decoded⟩ (unreadable text)

theorem reportFile_of_accepts (tractable : Tractable options read path)
    (accepts : Accepts options read path value) :
    ∃ size, reportFile options path (read path) =
      .accepted size (if options.echo then Json.render options.indent value ++ "\n" else "") := by
  obtain ⟨text, holds, parsed⟩ := accepts
  rw [← Json.readWithin_eq_read (tractable.shallow text holds)] at parsed
  refine ⟨text.length, ?_⟩
  rw [reportFile_of_holdsText holds]
  unfold reportText parseFile
  simp only [parsed]

theorem reportFile_of_rejects (tractable : Tractable options read path)
    (rejects : ∀ value, ¬Accepts options read path value) :
    ∃ complaint, reportFile options path (read path) = .failed complaint := by
  by_cases holds : ∃ text, HoldsText read path text
  · obtain ⟨text, holds⟩ := holds
    rw [reportFile_of_holdsText holds]
    unfold reportText parseFile
    split
    · rename_i value parsed
      rw [Json.readWithin_eq_read (tractable.shallow text holds)] at parsed
      exact absurd ⟨text, holds, parsed⟩ (rejects value)
    · exact ⟨_, rfl⟩
  · exact reportFile_of_unreadable (not_exists.mp holds)

def worst (options : Options) (read : String → Except ReadFault (List UInt8)) (paths : List String) :
    Nat :=
  paths.foldr (fun path status => max (reportFile options path (read path)).status status) 0

theorem worst_append :
    worst options read (paths ++ others) = max (worst options read paths) (worst options read others) := by
  induction paths with
  | nil => exact (Nat.zero_max _).symm
  | cons path paths ih =>
    simp only [worst, List.cons_append, List.foldr_cons] at ih ⊢
    rw [ih, Nat.max_assoc]

theorem FileReport.status_le_one (report : FileReport) : report.status ≤ 1 := by
  cases report with
  | accepted => exact Nat.zero_le 1
  | failed => exact Nat.le_refl 1

theorem worst_le {bound : Nat}
    (each : ∀ path ∈ paths, (reportFile options path (read path)).status ≤ bound) :
    worst options read paths ≤ bound := by
  induction paths with
  | nil => exact Nat.zero_le bound
  | cons path paths ih =>
    obtain ⟨first, later⟩ := List.forall_mem_cons.mp each
    exact Nat.max_le.mpr ⟨first, ih later⟩

theorem status_le_worst (inside : path ∈ paths) :
    (reportFile options path (read path)).status ≤ worst options read paths := by
  obtain ⟨before, after, rfl⟩ := List.append_of_mem inside
  rw [worst_append]
  exact Nat.le_trans (Nat.le_max_left _ _) (Nat.le_max_right _ _)

theorem reportFiles_cons (noNull : path.toList.contains '\x00' = false) :
    reportFiles options read elapsed (path :: paths) =
      let first := reportFile options path (read path)
      let later := reportFiles options read elapsed paths
      { later with
        stdout := first.stdout options path (elapsed path) ++ later.stdout
        stderr := first.stderr ++ later.stderr
        ending := later.ending.after first.status } := by
  rw [reportFiles]
  exact if_neg (noNull ▸ Bool.false_ne_true)

theorem ending_reportFiles (noNull : ∀ path ∈ paths, path.toList.contains '\x00' = false) :
    (reportFiles options read elapsed paths).ending = .status (worst options read paths) := by
  induction paths with
  | nil => rfl
  | cons path paths ih =>
    obtain ⟨first, later⟩ := List.forall_mem_cons.mp noNull
    rw [reportFiles_cons first]
    simp only [ih later]
    rfl

theorem reportFiles_append (noNull : ∀ path ∈ paths, path.toList.contains '\x00' = false) :
    (reportFiles options read elapsed (paths ++ others)).stdout =
        (reportFiles options read elapsed paths).stdout ++
          (reportFiles options read elapsed others).stdout ∧
      (reportFiles options read elapsed (paths ++ others)).stderr =
        (reportFiles options read elapsed paths).stderr ++
          (reportFiles options read elapsed others).stderr := by
  induction paths with
  | nil => exact ⟨String.empty_append.symm, String.empty_append.symm⟩
  | cons path paths ih =>
    obtain ⟨first, later⟩ := List.forall_mem_cons.mp noNull
    obtain ⟨stdout, stderr⟩ := ih later
    rw [List.cons_append, reportFiles_cons first, reportFiles_cons first]
    simp only [stdout, stderr, String.append_assoc, and_self]

def reportOn (options : Options) (read : String → Except ReadFault (List UInt8))
    (elapsed : String → Nat) (paths : List String) : Report :=
  run { options with paths } read elapsed

theorem reportFiles_with_paths (given : List String) :
    reportFiles { options with paths := given } read elapsed paths =
      reportFiles options read elapsed paths := by
  induction paths with
  | nil => rfl
  | cons path paths ih =>
    have alone : reportFile { options with paths := given } path (read path) =
        reportFile options path (read path) := rfl
    rw [reportFiles, reportFiles, ih, alone]
    rfl

theorem reportOn_eq (unlowered : defaultLimit ≤ options.limit) :
    reportOn options read elapsed paths =
      { reportFiles options read elapsed paths with warnings := [] } := by
  have positive : ¬options.limit < 0 := by
    simp only [defaultLimit] at unlowered
    omega
  have allowed : { options with paths }.refused = false := decide_eq_false positive
  have silent : { options with paths }.warnings = [] := if_neg (Int.not_lt.mpr unlowered)
  rw [reportOn, run, allowed, silent, if_neg Bool.false_ne_true, reportFiles_with_paths]

theorem reportOn_single (quiet : options.quiet = true) (unlowered : defaultLimit ≤ options.limit)
    (noNull : path.toList.contains '\x00' = false) :
    reportOn options read elapsed [path] =
      match reportFile options path (read path) with
      | .accepted _ echoed => ⟨echoed, "", [], .status 0⟩
      | .failed complaint => ⟨"", complaint ++ "\n", [], .status 1⟩ := by
  rw [reportOn_eq unlowered, reportFiles_cons noNull]
  cases reportFile options path (read path) with
  | accepted size echoed =>
    simp only [FileReport.stdout, quiet, reportFiles, FileReport.stderr, FileReport.status]
    simp
  | failed complaint =>
    simp only [FileReport.stdout, reportFiles, FileReport.stderr, FileReport.status]
    simp

structure FaithfulReport (options : Options) (read : String → Except ReadFault (List UInt8))
    (elapsed : String → Nat) (paths : List String) : Prop where
  accepted : ∀ path ∈ paths, ∀ value, Accepts options read path value →
    reportOn options read elapsed [path] =
      ⟨if options.echo then Json.render options.indent value ++ "\n" else "", "", [], .status 0⟩
  failed : ∀ path ∈ paths, (∀ value, ¬Accepts options read path value) →
    ∃ complaint, reportOn options read elapsed [path] = ⟨"", complaint ++ "\n", [], .status 1⟩
  success : (∀ path ∈ paths, ∃ value, Accepts options read path value) →
    (reportOn options read elapsed paths).ending = .status 0
  failure : (∃ path ∈ paths, ∀ value, ¬Accepts options read path value) →
    (reportOn options read elapsed paths).ending = .status 1

theorem faithfulReport (quiet : options.quiet = true) (unlowered : defaultLimit ≤ options.limit)
    (tractable : ∀ path ∈ paths, Tractable options read path) :
    FaithfulReport options read elapsed paths := by
  have noNull : ∀ path ∈ paths, path.toList.contains '\x00' = false :=
    fun path inside => (tractable path inside).noNull
  have ending : (reportOn options read elapsed paths).ending = .status (worst options read paths) := by
    rw [reportOn_eq unlowered]
    exact ending_reportFiles noNull
  constructor
  · intro path inside value accepts
    obtain ⟨size, report⟩ := reportFile_of_accepts (tractable path inside) accepts
    rw [reportOn_single quiet unlowered (noNull path inside), report]
  · intro path inside rejects
    obtain ⟨complaint, report⟩ := reportFile_of_rejects (tractable path inside) rejects
    refine ⟨complaint, ?_⟩
    rw [reportOn_single quiet unlowered (noNull path inside), report]
  · intro accepted
    have none : worst options read paths ≤ 0 := worst_le fun path inside => by
      obtain ⟨value, accepts⟩ := accepted path inside
      obtain ⟨size, report⟩ := reportFile_of_accepts (tractable path inside) accepts
      rw [report]
      exact Nat.le_refl 0
    rw [ending, Nat.le_zero.mp none]
  · rintro ⟨path, inside, rejects⟩
    obtain ⟨complaint, report⟩ := reportFile_of_rejects (tractable path inside) rejects
    have some : (reportFile options path (read path)).status ≤ worst options read paths :=
      status_le_worst inside
    rw [report] at some
    have most : worst options read paths ≤ 1 := worst_le fun path _ => FileReport.status_le_one _
    rw [ending, Nat.le_antisymm most some]

/-- A run on some files and then others writes what the runs on each of them write, one after the
other, and its status is the higher of theirs. -/
theorem files_reported_apart (elapsed : String → Nat) (quiet : options.quiet = true)
    (unlowered : defaultLimit ≤ options.limit)
    (tractable : ∀ path ∈ paths ++ others, Tractable options read path) :
    (reportOn options read elapsed (paths ++ others)).stdout =
        (reportOn options read elapsed paths).stdout ++
          (reportOn options read elapsed others).stdout ∧
    (reportOn options read elapsed (paths ++ others)).stderr =
        (reportOn options read elapsed paths).stderr ++
          (reportOn options read elapsed others).stderr ∧
    (∃ status status', (reportOn options read elapsed paths).ending = .status status ∧
      (reportOn options read elapsed others).ending = .status status' ∧
      (reportOn options read elapsed (paths ++ others)).ending = .status (max status status')) ∧
    FaithfulReport options read elapsed (paths ++ others) := by
  have noNull : ∀ path ∈ paths ++ others, path.toList.contains '\x00' = false :=
    fun path inside => (tractable path inside).noNull
  obtain ⟨left, right⟩ := List.forall_mem_append.mp noNull
  obtain ⟨stdout, stderr⟩ := reportFiles_append left
  refine ⟨?_, ?_, ⟨worst options read paths, worst options read others, ?_⟩, ?_⟩
  · simp only [reportOn_eq unlowered]
    exact stdout
  · simp only [reportOn_eq unlowered]
    exact stderr
  · simp only [reportOn_eq unlowered, ending_reportFiles left, ending_reportFiles right,
      ending_reportFiles noNull, worst_append, and_self]
  · exact faithfulReport quiet unlowered tractable

def strictEcho : Options :=
  ⟨[], true, true, some 2, none, true⟩

def sampleFiles (path : String) : Except ReadFault (List UInt8) :=
  if path = "null.json" then .ok [0x6E, 0x75, 0x6C, 0x6C, 0x0D, 0x0A]
  else if path = "garbled.json" then .ok [0x5B, 0xFF]
  else .error .notFound

theorem sampleFiles_reported :
    (∀ path ∈ ["null.json"] ++ ["garbled.json", "missing.json"],
      Tractable strictEcho sampleFiles path) ∧
    (reportOn strictEcho sampleFiles (fun _ => 0) ["null.json", "garbled.json", "missing.json"]).ending =
      .status 1 ∧
    (reportOn strictEcho sampleFiles (fun _ => 0) ["null.json"]).stdout = "null\n" := by
  have holds : HoldsText sampleFiles "null.json" "null\n" := ⟨_, rfl, by cbv⟩
  have garbled : ∀ text, ¬HoldsText sampleFiles "garbled.json" text := by
    rintro text ⟨bytes, found, decoded⟩
    cases found
    have bad : decodeFile [0x5B, 0xFF] = .error ⟨1, 0xFF, 1, .startByte⟩ := by cbv
    rw [bad] at decoded
    cases decoded
  have missing : ∀ text, ¬HoldsText sampleFiles "missing.json" text := by
    rintro text ⟨bytes, found, _⟩
    cases found
  have tractable : ∀ path ∈ ["null.json"] ++ ["garbled.json", "missing.json"],
      Tractable strictEcho sampleFiles path := by
    simp only [List.cons_append, List.nil_append, List.forall_mem_cons, List.not_mem_nil,
      false_implies, implies_true, and_true]
    refine ⟨⟨by decide, fun text held => ?_⟩, ⟨by decide, fun text held => ?_⟩,
      ⟨by decide, fun text held => ?_⟩⟩
    · rw [held.unique holds]
      exact Json.readWithin_ne_tooDeep true (show Json.Grammar.openings _ < _ by decide)
    · exact absurd held (garbled text)
    · exact absurd held (missing text)
  obtain ⟨_, _, _, faithful⟩ := files_reported_apart (fun _ => 0) rfl (by decide) tractable
  refine ⟨tractable, faithful.failure ⟨"missing.json", by simp, ?_⟩, ?_⟩
  · rintro value ⟨text, held, _⟩
    exact missing text held
  · rw [faithful.accepted "null.json" (by simp) .null ⟨_, holds, by cbv⟩]
    cbv

end Descent.CommandLine

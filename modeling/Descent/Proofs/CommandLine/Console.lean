import Descent.CommandLine.Console

/-!
A run against a console writes what the report of the run says: on a console that notes what it is
told, the notes are the report, whatever the arguments and the files.
-/

namespace Descent.CommandLine

def recorder (read : String → Except ReadFault (List UInt8)) (elapsed : String → Nat) :
    Console (StateM Report) where
  read path := return read path
  timed path task := return (task (), elapsed path)
  print text := modify fun report => { report with stdout := report.stdout ++ text }
  complain text := modify fun report => { report with stderr := report.stderr ++ text }
  warn text := modify fun report => { report with warnings := report.warnings ++ [text] }

def recorded (program : StateM Report Ending) : Report :=
  let (ending, notes) := program.run ⟨"", "", [], .status 0⟩
  { notes with ending }

namespace Console

variable (read : String → Except ReadFault (List UInt8)) (elapsed : String → Nat)
variable (options : Options)

theorem reportFiles_recorder (paths : List String) (notes : Report) :
    ((recorder read elapsed).reportFiles options paths).run notes =
      let report := CommandLine.reportFiles options read elapsed paths
      (report.ending, { notes with
        stdout := notes.stdout ++ report.stdout
        stderr := notes.stderr ++ report.stderr }) := by
  induction paths generalizing notes with
  | nil =>
    rw [reportFiles, CommandLine.reportFiles]
    simp only [String.append_empty]
    rfl
  | cons path rest ih =>
    rw [reportFiles, CommandLine.reportFiles]
    split
    · simp only [String.append_empty]
      rfl
    · let first := reportFile options path (read path)
      have later := ih { notes with
        stdout := notes.stdout ++ first.stdout options path (elapsed path)
        stderr := notes.stderr ++ first.stderr }
      simp only [String.append_assoc] at later
      -- Up to unfolding the recorder, the other files are reported behind what is noted of this one.
      exact congrArg (Prod.map (Ending.after first.status) id) later

theorem forM_warn_recorder (warnings : List String) (notes : Report) :
    (warnings.forM (recorder read elapsed).warn).run notes =
      ((), { notes with warnings := notes.warnings ++ warnings }) := by
  induction warnings generalizing notes with
  | nil =>
    rw [List.append_nil]
    rfl
  | cons warning warnings ih =>
    have noted := ih { notes with warnings := notes.warnings ++ [warning] }
    rw [List.append_assoc] at noted
    exact noted

theorem run_recorder : recorded ((recorder read elapsed).run options) =
    CommandLine.run options read elapsed := by
  have warned := forM_warn_recorder read elapsed options.warnings ⟨"", "", [], .status 0⟩
  rw [recorded, run, CommandLine.run, StateT.run_bind, warned, List.nil_append]
  by_cases refused : options.refused = true
  · rw [if_pos refused, if_pos refused]
    rfl
  · rw [if_neg refused, if_neg refused]
    have reported := reportFiles_recorder read elapsed options options.paths
      ⟨"", "", options.warnings, .status 0⟩
    simp only [String.empty_append] at reported
    exact congrArg (fun outcome => { outcome.2 with ending := outcome.1 }) reported

/-- The program that runs on a terminal writes the report of the run when it runs on a recorder. -/
theorem runArguments_recorder (arguments : List String) :
    recorded ((recorder read elapsed).runArguments arguments) =
      CommandLine.runArguments arguments read elapsed := by
  rw [runArguments, CommandLine.runArguments]
  cases readArguments arguments with
  | ok options => exact run_recorder read elapsed options
  | error exit =>
    change Report.mk ("" ++ exit.report.stdout) ("" ++ exit.report.stderr) [] exit.report.ending = _
    rw [String.empty_append, String.empty_append]
    cases exit <;> rfl

end Console

end Descent.CommandLine

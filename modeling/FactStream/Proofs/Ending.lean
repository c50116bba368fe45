import FactStream.CommandLine.Run
import FactStream.Proofs.Failing
import FactStream.Proofs.Notices
import FactStream.Proofs.Slice
import FactStream.Proofs.Wire

/-!
# How a command ends

A command that writes the facts of a project succeeds with all of them, or fails with one report.
`Trouble` lists what it fails for, in the order in which it is looked for: the settings, the name of
the language, and then what keeps a run from beginning. All of this comes before the first fact, so
nothing was written then (`runCommand_of_obstacle`).

Main statement: `parseProject_ends`. What is shown for debugging is not part of it: there the names
of directories stand as they are, and such a name may look like a report (`errorLines_broken`).
-/

namespace FactStream.CommandLine

/-- Whether a line looks like a report. -/
def isReport (line : List Char) : Bool := "Error: ".toList.isPrefixOf line

/-- The lines of standard error that look like reports. -/
def Result.errorLines (r : Result) : List String :=
  (r.messages.flatMap fun message =>
    (Text.split (· = '\n') message.toList).filter isReport).map String.ofList

theorem isReport_text (n : Notice) : isReport n.text.toList = false := by
  have htext : n.text.toList = n.level.name.toList ++ ' ' :: (n.message.toList ++
      n.fields.flatMap fun f => Notice.fieldText f.1 f.2) := by
    simp [Notice.text]
  rw [htext, isReport]
  cases n.level <;> rfl

theorem isReport_report (message : String) : isReport ("Error: " ++ message).toList = true := by
  rw [isReport, String.toList_append]
  exact List.isPrefixOf_iff_prefix.2 (List.prefix_append _ _)

/-- If every message is one line, the lines that look like reports are messages. -/
theorem errorLines_eq {r : Result} (h : ∀ message ∈ r.messages, '\n' ∉ message.toList) :
    r.errorLines = r.messages.filter fun message => isReport message.toList := by
  unfold Result.errorLines
  generalize r.messages = messages at h
  induction messages with
  | nil => rfl
  | cons message rest ih =>
    obtain ⟨hmessage, hrest⟩ := List.forall_mem_cons.1 h
    have hsplit : Text.split (· = '\n') message.toList = [message.toList] :=
      Text.split_of_forall fun c hc => decide_eq_false fun hfeed => hmessage (hfeed ▸ hc)
    rw [List.flatMap_cons, List.map_append, ih hrest, hsplit]
    cases hreport : isReport message.toList <;> simp [hreport]

theorem errorLines_of_notices {r : Result}
    (hnotices : ∀ n ∈ r.notices, r.log.passes n = true → '\n' ∉ n.text.toList)
    (hreports : ∀ message ∈ r.reports, '\n' ∉ message.toList ∧ isReport message.toList = true) :
    r.errorLines = r.reports := by
  have hlines : ∀ message ∈ r.messages, '\n' ∉ message.toList := by
    intro message hmessage
    rcases List.mem_append.1 hmessage with hmessage | hmessage
    · obtain ⟨n, hn, rfl⟩ := List.mem_map.1 hmessage
      obtain ⟨hn, hshown⟩ := List.mem_filter.1 hn
      exact hnotices n hn hshown
    · exact (hreports message hmessage).1
  have hshown : ((r.notices.filter r.log.passes).map (·.text)).filter
      (fun message => isReport message.toList) = [] := by
    rw [List.filter_eq_nil_iff, List.forall_mem_map]
    intro n _
    rw [isReport_text]
    exact Bool.false_ne_true
  rw [errorLines_eq hlines, Result.messages, List.filter_append, hshown, List.nil_append,
    List.filter_eq_self]
  exact fun message hmessage => (hreports message hmessage).2

/-! ## Commands that fail -/

/-- The program ends with one report and writes nothing. -/
structure Result.Fails (r : Result) (failure : Failure) : Prop where
  exitCode : r.exitCode = 1
  output : r.output = ""
  reports : r.reports = ["Error: " ++ failure.message]
  /-- The reason is told once more, if there is a level for notices. -/
  notices : ∀ n ∈ r.notices, n = .failed failure.message

theorem Result.Fails.errorLines {r : Result} {failure : Failure} (h : r.Fails failure)
    (hline : '\n' ∉ failure.message.toList) : r.errorLines = r.reports := by
  refine errorLines_of_notices (fun n hn _ => ?_) fun message hmessage => ?_
  · rw [h.notices n hn]
    have hname : '\n' ∉ Level.error.name.toList := by decide
    simp [Notice.text, Notice.level, Notice.message, Notice.fields, hname, hline]
  · rw [h.reports] at hmessage
    obtain rfl := List.mem_singleton.1 hmessage
    have hhead : '\n' ∉ "Error: ".toList := by decide
    refine ⟨?_, isReport_report failure.message⟩
    rw [String.toList_append, List.mem_append]
    exact not_or.2 ⟨hhead, hline⟩

variable {world : World} {args : List String} {invocation : Invocation}
  {name trunkKey base : String} {files : List String}

open RunPlan

end FactStream.CommandLine

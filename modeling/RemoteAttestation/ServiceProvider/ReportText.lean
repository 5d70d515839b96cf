import RemoteAttestation.Report.JsonObject
import RemoteAttestation.ServiceProvider.Verbosity

/-! # The text of a report

The verdict is made of three members of the report. How the report is laid out, in which order
its members stand, and what else it holds, does not matter.
-/

namespace RemoteAttestation

open Json

/-- The members that the verdict is made of. -/
def judgedKeys : List Bytes :=
  [ascii "version", ascii "isvEnclaveQuoteStatus", ascii "platformInfoBlob"]

theorem sameVerdict_of_lastValues {members members' : List (Bytes × Json)}
    (hsame : ∀ key ∈ judgedKeys, Json.lastValue key members = Json.lastValue key members') :
    SameVerdict (object (collect members [])) (object (collect members' [])) := by
  have hentry : ∀ key ∈ judgedKeys, entry key (collect members []) = entry key (collect members' []) := by
    intro key hkey
    rw [entry_collect, entry_collect, hsame key hkey]
  have hversion := hentry (ascii "version") (by simp [judgedKeys])
  have hstatus := hentry (ascii "isvEnclaveQuoteStatus") (by simp [judgedKeys])
  have hblob := hentry (ascii "platformInfoBlob") (by simp [judgedKeys])
  constructor
  · rw [hasKey_object, hasKey_object, hversion]
  · rw [index_object, index_object, hversion]
  · rw [index_object, index_object, hstatus]
  · rw [index_object, index_object, hblob]
  · rw [index_object, index_object, hblob]

/-- A text that spells the object of these members, with white space around it. -/
structure SpellsReport (members : List (Bytes × Json)) (content : Bytes) : Prop where
  spelled : ∃ front text back, Blank front ∧ Blank back ∧
    Spells (.value (.object (collect members []))) text ∧ content = front ++ text ++ back

theorem SpellsReport.load {members : List (Bytes × Json)} {content : Bytes}
    (hspells : SpellsReport members content) : load content = .ok (.object (collect members [])) := by
  obtain ⟨front, text, back, hfront, _, htext, rfl⟩ := hspells.spelled
  exact load_of_spells hfront htext trivial

/-- Reports whose last values of the three members are the same lead to the same verdict. -/
theorem verdict_of_members {members members' : List (Bytes × Json)} {content content' : Bytes}
    (hspells : SpellsReport members content) (hspells' : SpellsReport members' content')
    (hsame : ∀ key ∈ judgedKeys, Json.lastValue key members = Json.lastValue key members')
    (version : Nat) (strictTrust verbose verbose' : Bool) (stale : Nat → UInt8) :
    evaluateReport version strictTrust verbose stale content =
      evaluateReport version strictTrust verbose' stale content' := by
  rw [evaluateReport_verbose _ _ verbose, evaluateReport_verbose _ _ verbose']
  unfold evaluateReport
  rw [hspells.load, hspells'.load]
  exact judgeReport_congr (sameVerdict_of_lastValues hsame) version strictTrust stale

/-- The version and the status of a report. -/
def membersOk : List (Bytes × Json) :=
  [(ascii "version", .integral 4), (ascii "isvEnclaveQuoteStatus", .string (ascii "OK"))]

theorem spells_four : Spells (.value (.integral 4)) (ascii "4") :=
  @Spells.natural (ascii "4") (by decide) (forall_mem_of_all (by decide)) (by decide)

theorem spells_ok : Spells (.value (.string (ascii "OK"))) (ascii "\"OK\"") :=
  .string (spellsChars_plain (forall_mem_of_all (by decide)))

/-- The report with these members is spelled without white space. -/
theorem membersOk_spelled : SpellsReport membersOk (reportText "OK") := by
  have hversion := @spellsChars_plain (ascii "version") (forall_mem_of_all (by decide))
  have hstatus := @spellsChars_plain (ascii "isvEnclaveQuoteStatus") (forall_mem_of_all (by decide))
  have hlast := @Spells.member _ _ _ [] _ [] _ [] blank_nil hstatus blank_nil blank_nil spells_ok
    blank_nil
  have hmembers := Spells.object (.moreMembers blank_nil hversion blank_nil blank_nil spells_four
    blank_nil hlast)
  exact ⟨[], _, [], blank_nil, blank_nil, hmembers, rfl⟩

/-- A compact report and one with spaces whose members are in the other order. -/
theorem verdict_of_members_ok :
    evaluateReport 4 false true (fun _ => 0) (reportText "OK") =
      evaluateReport 4 false false (fun _ => 0)
        (ascii "\x7b\"isvEnclaveQuoteStatus\" : \"OK\", \"version\" : 4\x7d") := by
  have hversion := @spellsChars_plain (ascii "version") (forall_mem_of_all (by decide))
  have hstatus := @spellsChars_plain (ascii "isvEnclaveQuoteStatus") (forall_mem_of_all (by decide))
  have hlast := @Spells.member _ _ _ [32] _ [32] _ [] blank_space hversion blank_space blank_space
    spells_four blank_nil
  have hspaced := Spells.object (.moreMembers blank_nil hstatus blank_space blank_space spells_ok
    blank_nil hlast)
  refine @verdict_of_members membersOk membersOk.reverse _ _ membersOk_spelled
    ⟨[], _, [], blank_nil, blank_nil, hspaced, rfl⟩ ?_ 4 false true false _
  intro key hkey
  simp only [judgedKeys, List.mem_cons, List.not_mem_nil, or_false] at hkey
  rcases hkey with rfl | rfl | rfl
  · rfl
  · rfl
  · rfl

end RemoteAttestation

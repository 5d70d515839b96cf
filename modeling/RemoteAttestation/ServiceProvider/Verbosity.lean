import RemoteAttestation.Transport.HexDecoder
import RemoteAttestation.ServiceProvider.QuoteBinding

/-! # Verbosity and the verdict

A verbose server looks up fields before it evaluates the report, and so turns what is no object
into one and inserts the missing fields. None of what follows can tell.
-/

namespace RemoteAttestation

theorem Json.index_of_hasKey_eq_false {key : Bytes} {value : Json}
    (hkey : value.hasKey key = false) : value.index key = .null := by
  cases value with
  | object entries =>
      have hfind : entries.find? (fun entry => entry.1 == key) = none := by
        rw [List.find?_eq_none]
        exact List.any_eq_false.mp hkey
      rw [index, hfind]
      rfl
  | _ => rfl

/-- The version is looked up from the third version of the API on. -/
theorem version_mem_verboseFields (version : Nat) :
    (verboseFields version).any (· == ascii "version") = decide (3 ≤ version) := by
  unfold verboseFields
  rw [List.any_append, List.any_append]
  by_cases hversion : 3 ≤ version
  · rw [if_pos hversion, decide_eq_true hversion]
    rfl
  · rw [if_neg hversion, if_neg (by omega), decide_eq_false hversion]
    decide

/-- A missing version that was inserted as null fails the check that it fails when missing. -/
theorem checkVersion_touches (version : Nat) (reportObj : Json) :
    checkVersion version ((verboseFields version).foldl (fun obj key => obj.touch key) reportObj) =
      checkVersion version reportObj := by
  unfold checkVersion
  rw [Json.hasKey_touches, version_mem_verboseFields, Json.index_touches]
  cases hkey : reportObj.hasKey (ascii "version") with
  | true => rfl
  | false =>
      rw [Bool.false_or]
      by_cases hversion : 3 ≤ version
      · -- The inserted null is read as version 0.
        have hnull := Json.index_of_hasKey_eq_false hkey
        rw [if_pos (decide_eq_true hversion), if_neg Bool.false_ne_true, hnull]
        have hpositive : ¬ (0 : Int) % 2 ^ 32 = version := by omega
        have hnot : ¬ version < 3 := by omega
        have hzero : Json.toInt .null = 0 := rfl
        rw [hzero, decide_eq_false hpositive, decide_eq_false hnot]
      · rw [decide_eq_false hversion]

/-- The verdict does not depend on the fields that were inserted. -/
theorem judgeReport_touches (version : Nat) (strictTrust : Bool) (stale : Nat → UInt8)
    (reportObj : Json) :
    judgeReport version strictTrust stale
        ((verboseFields version).foldl (fun obj key => obj.touch key) reportObj) =
      judgeReport version strictTrust stale reportObj := by
  unfold judgeReport quoteStatus
  rw [checkVersion_touches, Json.index_touches, Json.index_touches]

theorem evaluateReport_verbose (version : Nat) (strictTrust verbose : Bool) (stale : Nat → UInt8)
    (content : Bytes) :
    evaluateReport version strictTrust verbose stale content =
      evaluateReport version strictTrust false stale content := by
  unfold evaluateReport
  cases verbose with
  | false => rfl
  | true =>
      cases Json.load content with
      | error e => rfl
      | ok reportObj =>
          dsimp only
          rw [if_pos rfl, if_neg Bool.false_ne_true, judgeReport_touches]

theorem getAttestationReport_verbose {sys : Sys} (config : Config sys) (verbose : Bool)
    (b64quote : Bytes) :
    getAttestationReport { config with verbose } b64quote = getAttestationReport config b64quote := by
  unfold getAttestationReport
  simp only [evaluateReport_verbose _ _ verbose, evaluateReport_verbose _ _ config.verbose]

/-- Whatever a verified report contains, a verbose server and one that is not return the same for
it, in any one environment. -/
theorem verdict_of_verbose :
    (∀ version strictTrust stale content,
      evaluateReport version strictTrust true stale content =
        evaluateReport version strictTrust false stale content) ∧
      ∀ (sys : Sys) (config : Config sys) (b64quote : Bytes),
        getAttestationReport { config with verbose := true } b64quote =
          getAttestationReport { config with verbose := false } b64quote := by
  refine ⟨fun version strictTrust stale content => ?_, fun sys config b64quote => ?_⟩
  · exact evaluateReport_verbose version strictTrust true stale content
  · have hquiet := getAttestationReport_verbose config false b64quote
    exact (getAttestationReport_verbose config true b64quote).trans hquiet.symm

end RemoteAttestation

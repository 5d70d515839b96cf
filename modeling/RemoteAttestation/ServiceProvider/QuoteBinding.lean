import RemoteAttestation.ServiceProvider.Authorisation

/-! # The quote a report is about

A report is bound to a quote by the request it answers: the request carries the quote of
the message at hand, and the verdict comes from the answer to this request. The report
also names the body of the quote it is about, and this field the service provider does
not look at.
-/

namespace RemoteAttestation

open Proc

variable {sys : Sys}

/-! ## What the verdict depends on -/

namespace Json

theorem hasKey_touch (key touched : Bytes) (value : Json) :
    (value.touch touched).hasKey key = (value.hasKey key || touched == key) := by
  cases value with
  | object entries =>
      simp only [touch]
      split
      next hpresent =>
        by_cases hkey : touched = key
        · subst hkey
          simp [hasKey, hpresent]
        · simp [hkey]
      next => simp [hasKey]
  | _ => simp [touch, hasKey]

theorem hasKey_touches (key : Bytes) (touched : List Bytes) (value : Json) :
    (touched.foldl (fun obj name => obj.touch name) value).hasKey key =
      (value.hasKey key || touched.any (· == key)) := by
  induction touched generalizing value with
  | nil => simp
  | cons name touched ih =>
      rw [List.foldl_cons, ih, hasKey_touch, List.any_cons, Bool.or_assoc]

/-- The two reports agree on all that the verdict is made of. -/
structure SameVerdict (left right : Json) : Prop where
  hasVersion : left.hasKey (ascii "version") = right.hasKey (ascii "version")
  version : (left.index (ascii "version")).toInt = (right.index (ascii "version")).toInt
  status : (left.index (ascii "isvEnclaveQuoteStatus")).toText =
    (right.index (ascii "isvEnclaveQuoteStatus")).toText
  noBlob : (left.index (ascii "platformInfoBlob")).isNull =
    (right.index (ascii "platformInfoBlob")).isNull
  blob : (left.index (ascii "platformInfoBlob")).toText =
    (right.index (ascii "platformInfoBlob")).toText

instance (left right : Json) : Decidable (left.SameVerdict right) :=
  decidable_of_iff
    (left.hasKey (ascii "version") = right.hasKey (ascii "version") ∧
      (left.index (ascii "version")).toInt = (right.index (ascii "version")).toInt ∧
      (left.index (ascii "isvEnclaveQuoteStatus")).toText =
        (right.index (ascii "isvEnclaveQuoteStatus")).toText ∧
      (left.index (ascii "platformInfoBlob")).isNull =
        (right.index (ascii "platformInfoBlob")).isNull ∧
      (left.index (ascii "platformInfoBlob")).toText =
        (right.index (ascii "platformInfoBlob")).toText)
    ⟨fun h => ⟨h.1, h.2.1, h.2.2.1, h.2.2.2.1, h.2.2.2.2⟩,
      fun h => ⟨h.hasVersion, h.version, h.status, h.noBlob, h.blob⟩⟩

/-- Looking up further fields in both changes nothing about it. -/
theorem SameVerdict.touches {left right : Json} (hsame : left.SameVerdict right)
    (touched : List Bytes) :
    (touched.foldl (fun obj name => obj.touch name) left).SameVerdict
      (touched.foldl (fun obj name => obj.touch name) right) where
  hasVersion := by rw [hasKey_touches, hasKey_touches, hsame.hasVersion]
  version := by rw [index_touches, index_touches, hsame.version]
  status := by rw [index_touches, index_touches, hsame.status]
  noBlob := by rw [index_touches, index_touches, hsame.noBlob]
  blob := by rw [index_touches, index_touches, hsame.blob]

end Json

theorem judgeReport_congr {left right : Json} (hsame : left.SameVerdict right) (version : Nat)
    (strictTrust : Bool) (stale : Nat → UInt8) :
    judgeReport version strictTrust stale left = judgeReport version strictTrust stale right := by
  unfold judgeReport checkVersion quoteStatus decodedPlatformInfoBlob
  rw [hsame.hasVersion, hsame.version, hsame.status, hsame.noBlob, hsame.blob]

theorem evaluateReport_congr {content content' : Bytes} {left right : Json}
    (hleft : Json.load content = .ok left) (hright : Json.load content' = .ok right)
    (hsame : left.SameVerdict right) (version : Nat) (strictTrust verbose : Bool)
    (stale : Nat → UInt8) :
    evaluateReport version strictTrust verbose stale content =
      evaluateReport version strictTrust verbose stale content' := by
  unfold evaluateReport
  rw [hleft, hright]
  cases verbose with
  | false => exact judgeReport_congr hsame version strictTrust stale
  | true => exact judgeReport_congr (hsame.touches _) version strictTrust stale

/-! ## What a trusted enclave was asked about -/

/-- The body of the quote in message 3, without the length and the signature behind it. -/
def quoteBody (message : Bytes) : Bytes := (message.drop sizeofMsg3).take 432

/-- A message 3 whose quote has a version. -/
def msg3Version2 : Bytes := plainMsg3 256 ++ 2 :: List.replicate 435 0

/-- A report about the quote in a plain message 3. -/
def zeroQuoteReport : Bytes :=
  ascii "\x7b\"version\":4,\"isvEnclaveQuoteStatus\":\"OK\",\"isvEnclaveQuoteBody\":\"" ++
    encodeBase64 (quoteBody (plainMsg3 692)) ++ ascii "\"\x7d"

theorem evaluateReport_zeroQuoteReport :
    evaluateReport 4 false false (fun _ => 0) zeroQuoteReport =
      some (some ⟨.trusted, .zero _, .zero _⟩) := by
  decide +kernel

/-- The report parses, and the body it names is not that of the other quote. -/
theorem load_zeroQuoteReport :
    ∃ reportObj, Json.load zeroQuoteReport = .ok reportObj ∧
      (reportObj.index (ascii "isvEnclaveQuoteBody")).toText =
        encodeBase64 (quoteBody (plainMsg3 692)) ∧
      (reportObj.index (ascii "isvEnclaveQuoteBody")).toText ≠
        encodeBase64 (quoteBody msg3Version2) := by
  have hbody : (match Json.load zeroQuoteReport with
      | .ok reportObj => some (reportObj.index (ascii "isvEnclaveQuoteBody")).toText
      | .error _ => none) = some (encodeBase64 (quoteBody (plainMsg3 692))) := by
    decide +kernel
  have hother : encodeBase64 (quoteBody (plainMsg3 692)) ≠
      encodeBase64 (quoteBody msg3Version2) := by
    decide +kernel
  split at hbody
  next reportObj hload =>
    refine ⟨reportObj, hload, Option.some.inj hbody, ?_⟩
    rw [Option.some.inj hbody]
    exact hother
  next => cases hbody

end RemoteAttestation

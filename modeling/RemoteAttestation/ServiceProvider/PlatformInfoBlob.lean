import RemoteAttestation.ServiceProvider.Verbosity

/-! # The platform info blob

`get_attestation_report` cuts eight characters off the blob of the report and decodes the rest
into `msg4`. It looks neither at the length of the text nor at what the decoder returns.
-/

namespace RemoteAttestation

/-- A header of four bytes and at most as many bytes as fit, all in hexadecimal digits. -/
def WellFormedBlob (value : Bytes) : Prop :=
  (∃ n ≤ sizeofPlatformInfo, value.length = 2 * (4 + n)) ∧ ∀ c ∈ value, (hexValue? c).isSome

/-- The text behind the header of the blob. -/
def blobText (value : Bytes) : Bytes := (Json.jsonEscape value).drop 8

/-- The blob disturbs neither the memory nor the verdict, and one that is ill-formed is not
stored. -/
structure BlobContained (version : Nat) (strictTrust : Bool) (reportObj : Json) (value : Bytes) :
    Prop where
  header : 8 ≤ (Json.jsonEscape value).length
  reads : ∀ behind, ∀ i < scanCount (blobText value ++ 0 :: behind) ((blobText value).length / 2),
    lastRead (blobText value ++ 0 :: behind) (2 * i) ≤ (blobText value).length
  writes : storedCount (blobText value) ((blobText value).length / 2) ≤ sizeofPlatformInfo
  verdict : ∀ content verbose stale, Json.load content = .ok reportObj →
    ∃ msg4, evaluateReport version strictTrust verbose stale content = some (some msg4) ∧
      msg4.status = attestationStatus (quoteStatus reportObj) strictTrust ∧
      msg4.ciphertext = .zero 16
  refuses : ¬ WellFormedBlob value →
    storedCount (blobText value) ((blobText value).length / 2) = 0

/-- The first conversion finds no number, or there is none. -/
def NothingDecoded (payload : Bytes) : Prop :=
  payload.length < 2 ∨ scanHex2 payload = .mismatch

/-- The part of the platform info blob that is decoded, if it comes to that. -/
def blobPayload (reportObj : Json) : Option Bytes :=
  if (reportObj.index (ascii "platformInfoBlob")).isNull ∨
      (reportObj.index (ascii "platformInfoBlob")).toText.length < 8 then none
  else some ((reportObj.index (ascii "platformInfoBlob")).toText.drop 8)

/-- The verdict on a report of the right version, in terms of the payload of its blob. -/
theorem judgeReport_of_checkVersion {version : Nat} {reportObj : Json}
    (hversion : checkVersion version reportObj = true) (strictTrust : Bool)
    (stale : Nat → UInt8) {payload : Bytes} (hpayload : blobPayload reportObj = some payload) :
    judgeReport version strictTrust stale reportObj =
      (storePlatformInfoBlob (attestationStatus (quoteStatus reportObj) strictTrust)
        (fromHexstring stale payload (payload.length / 2)).2).map some := by
  unfold blobPayload at hpayload
  split at hpayload
  next => cases hpayload
  next htext =>
    cases hpayload
    rw [not_or] at htext
    unfold judgeReport decodedPlatformInfoBlob
    rw [hversion, Bool.not_true, if_neg Bool.false_ne_true, if_neg htext.1]
    dsimp only
    rw [if_neg htext.2]

/-- A report of version 4 that is trusted, with a platform info blob. -/
def blobReport (blob : Bytes) : Bytes :=
  ascii "\x7b\"version\":4,\"isvEnclaveQuoteStatus\":\"OK\",\"platformInfoBlob\":\"" ++ blob ++
    ascii "\"\x7d"

/-! ## The text of the blob -/

/-- No hexadecimal digit is escaped. -/
theorem Json.jsonEscape_hexDigits {text : Bytes} (htext : ∀ c ∈ text, (hexValue? c).isSome) :
    Json.jsonEscape text = text := by
  have hplain : ∀ c : UInt8, (hexValue? c).isSome → Json.jsonEscape [c] = [c] :=
    forall_uint8 (by decide +kernel)
  induction text with
  | nil => rfl
  | cons c text ih =>
      rw [List.forall_mem_cons] at htext
      have hsplit : Json.jsonEscape (c :: text) = Json.jsonEscape [c] ++ Json.jsonEscape text := by
        simp [Json.jsonEscape]
      rw [hsplit, hplain c htext.1, ih htext.2]
      rfl

/-- A call that starts before the terminator does not read behind it. -/
theorem lastRead_le {text : Bytes} {offset : Nat} (hoffset : offset ≤ text.length)
    (behind : Bytes) : lastRead (text ++ 0 :: behind) offset ≤ text.length := by
  have hstop : ∀ text : Bytes, (cstr (text ++ 0 :: behind)).length ≤ text.length := by
    intro text
    induction text with
    | nil => exact Nat.le_refl 0
    | cons c text ih =>
        rw [List.cons_append, cstr, List.takeWhile_cons]
        split
        · exact Nat.succ_le_succ ih
        · exact Nat.zero_le _
  have hrest := hstop (text.drop offset)
  rw [List.length_drop] at hrest
  unfold lastRead
  rw [List.drop_append_of_le_length hoffset]
  omega

theorem blob_reads (payload behind : Bytes) :
    ∀ i < scanCount (payload ++ 0 :: behind) (payload.length / 2),
      lastRead (payload ++ 0 :: behind) (2 * i) ≤ payload.length := by
  intro i hi
  have hlt := ((lt_scanCount_iff _ _ i).mp hi).1
  exact lastRead_le (by omega) behind

/-- The header of a blob that is decoded is cut off. -/
theorem blobPayload_string {reportObj : Json} {value : Bytes}
    (hblob : reportObj.index (ascii "platformInfoBlob") = .string value)
    (hlength : 8 ≤ (Json.jsonEscape value).length) :
    blobPayload reportObj = some (blobText value) := by
  unfold blobPayload
  rw [hblob, if_neg]
  · rfl
  · rw [not_or]
    exact ⟨Bool.false_ne_true, Nat.not_lt_of_le hlength⟩

/-! ## The decoded bytes -/

theorem storedCount_eq_zero_iff (payload : Bytes) :
    storedCount payload (payload.length / 2) = 0 ↔ NothingDecoded payload := by
  have hfirst := lt_storedCount_iff payload (payload.length / 2) 0
  rw [Nat.pos_iff_ne_zero] at hfirst
  have hscan : (∀ j ≤ 0, scanHex2 (payload.drop (2 * j)) ≠ .mismatch) ↔
      scanHex2 payload ≠ .mismatch := by
    refine ⟨fun h => h 0 (Nat.le_refl 0), fun h j hj => ?_⟩
    rw [Nat.le_zero.mp hj]
    exact h
  rw [hscan] at hfirst
  have hshort : 0 < payload.length / 2 ↔ ¬ payload.length < 2 := by omega
  rw [hshort] at hfirst
  unfold NothingDecoded
  rw [← not_iff_not, not_or]
  exact hfirst

/-- What fits into the blob leaves the ciphertext zero. -/
theorem storePlatformInfoBlob_of_le {stored : Bytes} (hfits : stored.length ≤ sizeofPlatformInfo)
    (status : AttestationStatus) :
    storePlatformInfoBlob status stored =
      some ⟨status, .overlay sizeofPlatformInfo stored, .zero 16⟩ := by
  have hpadding : sizeofPlatformInfo ≤ sizeofMsg4 - 4 := by decide
  unfold storePlatformInfoBlob
  rw [if_neg (by omega), List.drop_eq_nil_of_le hfits]
  rfl

/-- The report on a string that is cut and decoded. -/
theorem evaluateReport_string {version : Nat} {reportObj : Json} {value content : Bytes}
    (hversion : checkVersion version reportObj = true)
    (hblob : reportObj.index (ascii "platformInfoBlob") = .string value)
    (hlength : 8 ≤ (Json.jsonEscape value).length) (hload : Json.load content = .ok reportObj)
    (strictTrust verbose : Bool) (stale : Nat → UInt8) :
    evaluateReport version strictTrust verbose stale content =
      (storePlatformInfoBlob (attestationStatus (quoteStatus reportObj) strictTrust)
        (fromHexstring stale (blobText value) ((blobText value).length / 2)).2).map some := by
  rw [evaluateReport_verbose, evaluateReport, hload]
  exact judgeReport_of_checkVersion hversion strictTrust stale (blobPayload_string hblob hlength)

theorem WellFormedBlob.text_eq {value : Bytes} (hvalue : WellFormedBlob value) :
    Json.jsonEscape value = value := Json.jsonEscape_hexDigits hvalue.2

/-- A well-formed blob is stored as it is, before zeros. -/
theorem evaluateReport_wellFormed {version : Nat} {reportObj : Json} {value content : Bytes}
    (hversion : checkVersion version reportObj = true)
    (hblob : reportObj.index (ascii "platformInfoBlob") = .string value)
    (hvalue : WellFormedBlob value) (hload : Json.load content = .ok reportObj)
    (strictTrust verbose : Bool) (stale : Nat → UInt8) :
    evaluateReport version strictTrust verbose stale content =
      some (some ⟨attestationStatus (quoteStatus reportObj) strictTrust,
        .overlay sizeofPlatformInfo (hexPairs (value.drop 8)), .zero 16⟩) := by
  obtain ⟨⟨n, hn, hsize⟩, hdigits⟩ := hvalue
  have htext : blobText value = value.drop 8 := by
    rw [blobText, Json.jsonEscape_hexDigits hdigits]
  have hpayload : (value.drop 8).length = 2 * n := by
    rw [List.length_drop]
    omega
  have hdecode : fromHexstring stale (value.drop 8) n = (true, hexPairs (value.drop 8)) := by
    have hall : HexDigits (value.drop 8) n :=
      ⟨by omega, fun c hc => hdigits c (List.mem_of_mem_drop (List.mem_of_mem_take hc))⟩
    have hwhole := fromHexstring_digits stale hall []
    rwa [List.append_nil, List.take_of_length_le (by omega)] at hwhole
  have hlength : 8 ≤ (Json.jsonEscape value).length := by
    rw [Json.jsonEscape_hexDigits hdigits]
    omega
  have hfits : (hexPairs (value.drop 8)).length ≤ sizeofPlatformInfo := by
    rw [length_hexPairs, hpayload]
    omega
  have hhalf : 2 * n / 2 = n := by omega
  rw [evaluateReport_string hversion hblob hlength hload, htext, hpayload, hhalf, hdecode,
    storePlatformInfoBlob_of_le hfits]
  rfl

/-! ## Containment -/

/-- When no more is stored than fits, the verdict is untouched. -/
theorem verdict_of_stored {version : Nat} {reportObj : Json} {value : Bytes}
    (hversion : checkVersion version reportObj = true)
    (hblob : reportObj.index (ascii "platformInfoBlob") = .string value)
    (hlength : 8 ≤ (Json.jsonEscape value).length)
    (hfits : storedCount (blobText value) ((blobText value).length / 2) ≤ sizeofPlatformInfo)
    (strictTrust : Bool) :
    ∀ content verbose stale, Json.load content = .ok reportObj →
      ∃ msg4, evaluateReport version strictTrust verbose stale content = some (some msg4) ∧
        msg4.status = attestationStatus (quoteStatus reportObj) strictTrust ∧
        msg4.ciphertext = .zero 16 := by
  intro content verbose stale hload
  have hstored : (fromHexstring stale (blobText value) ((blobText value).length / 2)).2.length ≤
      sizeofPlatformInfo := by
    rw [length_stored]
    exact hfits
  rw [evaluateReport_string hversion hblob hlength hload, storePlatformInfoBlob_of_le hstored]
  exact ⟨_, rfl, rfl, rfl⟩

/-- A blob is harmless exactly if it is well-formed, or long enough for its header and such
that nothing behind the header is decoded. -/
theorem blobContained_iff (version : Nat) (strictTrust : Bool) {reportObj : Json} {value : Bytes}
    (hblob : reportObj.index (ascii "platformInfoBlob") = .string value) :
    (checkVersion version reportObj = true → BlobContained version strictTrust reportObj value) ↔
      (checkVersion version reportObj = true →
        WellFormedBlob value ∨
          (8 ≤ (Json.jsonEscape value).length ∧ NothingDecoded (blobText value))) := by
  constructor
  · intro hcontained hversion
    by_cases hvalue : WellFormedBlob value
    · exact .inl hvalue
    · have hblob := hcontained hversion
      exact .inr ⟨hblob.header, (storedCount_eq_zero_iff _).mp (hblob.refuses hvalue)⟩
  · intro hvalue hversion
    have hfacts : 8 ≤ (Json.jsonEscape value).length ∧
        storedCount (blobText value) ((blobText value).length / 2) ≤ sizeofPlatformInfo ∧
        (¬ WellFormedBlob value →
          storedCount (blobText value) ((blobText value).length / 2) = 0) := by
      -- Either the digits are those of the structure, or the first conversion stops the decoder.
      rcases hvalue hversion with hformed | ⟨hlength, hnothing⟩
      · obtain ⟨n, hn, hsize⟩ := hformed.1
        have hle := storedCount_le (blobText value) ((blobText value).length / 2)
        rw [blobText, hformed.text_eq, List.length_drop] at hle ⊢
        exact ⟨by omega, by omega, fun hnot => absurd hformed hnot⟩
      · have hzero := (storedCount_eq_zero_iff _).mpr hnothing
        exact ⟨hlength, by omega, fun _ => hzero⟩
    obtain ⟨hlength, hfits, hrefuses⟩ := hfacts
    exact
      { header := hlength
        reads := fun behind => blob_reads _ behind
        writes := hfits
        verdict := verdict_of_stored hversion hblob hlength hfits strictTrust
        refuses := hrefuses }

/-- A report with a header and one byte. -/
theorem blobContained_byte :
    BlobContained 4 true
      (.object [(ascii "version", .integral 4),
        (ascii "platformInfoBlob", .string (ascii "0000000001"))]) (ascii "0000000001") := by
  refine (blobContained_iff 4 true (by rfl)).mpr (fun _ => .inl ⟨⟨1, ?_, ?_⟩, ?_⟩) ?_
  · decide
  · decide
  · exact List.all_eq_true.mp (by decide)
  · decide

/-- One byte too many goes to the ciphertext. -/
theorem longBlob_not_contained :
    (∃ msg4, evaluateReport 4 true false (fun _ => 0)
        (blobReport (List.replicate 8 48 ++ List.replicate 204 102)) = some (some msg4) ∧
      msg4.ciphertext ≠ .zero 16) ∧
      ∀ reportObj, ¬ BlobContained 4 true reportObj
        (List.replicate 8 48 ++ List.replicate 204 102) := by
  refine ⟨⟨⟨.trusted, ⟨List.replicate 101 255, by decide⟩,
    ⟨255 :: List.replicate 15 0, by decide⟩⟩, by decide +kernel, by decide⟩, ?_⟩
  intro reportObj hcontained
  exact absurd hcontained.writes (by decide +kernel)

end RemoteAttestation

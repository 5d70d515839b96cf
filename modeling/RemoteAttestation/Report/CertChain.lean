import RemoteAttestation.Report.Verification

/-! # The certificate chain

The splitting loop of `report`, with the text that it hands to `cert_load` for each piece, and
the stack that is made of the certificates. `cert_load` takes a C string, so that what stands
behind a NUL in a piece is not loaded.
-/

namespace RemoteAttestation

variable {α : Type}

/-! ## Loading -/

/-- A loader that keeps the text of each certificate. -/
def keepText (load : Nat → Bytes → Option α) (index : Nat) (text : Bytes) : Option (Bytes × α) :=
  (load index text).map fun cert => (text, cert)

/-- The indices at which a certificate begins. -/
def certMarkers (text : Bytes) : List Nat :=
  (List.range text.length).filter fun i => certBegin <+: text.drop i

/-- The loaded texts are the whole chain, cut before every marker but a leading one. -/
structure SplitsExactly (text : Bytes) (loaded : List (Bytes × α)) : Prop where
  whole : (loaded.map Prod.fst).flatten = text
  count : loaded.length = 1 + ((certMarkers text).filter (1 ≤ ·)).length
  starts : ∀ piece ∈ loaded.tail, certBegin <+: piece.1
  later : ∀ piece ∈ loaded, ∀ i, 1 ≤ i → ¬ certBegin <+: piece.1.drop i

/-! ## The pieces -/

theorem length_certMarkers_cons (c : UInt8) (rest : Bytes) :
    (certMarkers (c :: rest)).length =
      (if certBegin <+: c :: rest then 1 else 0) + (certMarkers rest).length := by
  unfold certMarkers
  rw [List.length_cons, List.range_succ_eq_map, List.filter_cons, List.filter_map]
  simp only [List.drop_zero, decide_eq_true_eq]
  split
  · rw [List.length_cons, List.length_map, Nat.add_comm]
    rfl
  · rw [List.length_map, Nat.zero_add]
    rfl

theorem length_certMarkers_positive (c : UInt8) (rest : Bytes) :
    ((certMarkers (c :: rest)).filter (1 ≤ ·)).length = (certMarkers rest).length := by
  unfold certMarkers
  rw [List.length_cons, List.range_succ_eq_map, List.filter_filter, List.filter_cons,
    List.filter_map]
  rw [if_neg (by simp), List.length_map]
  congr 2

/-- One piece, and one more for every marker behind the first character. -/
theorem length_certPieces (c : UInt8) (rest : Bytes) :
    (certPieces (c :: rest)).certs.length = 1 + (certMarkers rest).length := by
  induction rest generalizing c with
  | nil => rfl
  | cons d rest ih =>
      rw [length_certMarkers_cons, certPieces]
      by_cases hmarker : certBegin <+: d :: rest
      · rw [if_pos hmarker, if_pos hmarker, CertChain.certs, List.length_cons, ih]
        omega
      · rw [if_neg hmarker, if_neg hmarker, Nat.zero_add, ← ih d]
        rfl

theorem length_certPieces_of_ne_nil {text : Bytes} (htext : text ≠ []) :
    (certPieces text).certs.length = 1 + ((certMarkers text).filter (1 ≤ ·)).length := by
  cases text with
  | nil => exact absurd rfl htext
  | cons c rest => rw [length_certPieces, length_certMarkers_positive]

theorem signing_certPieces (text : Bytes) : (certPieces text).signing <+: text := by
  have hflatten := flatten_certPieces text
  rw [CertChain.certs, List.flatten_cons] at hflatten
  exact ⟨_, hflatten⟩

/-- Two markers do not overlap. -/
theorem le_of_markers {text : Bytes} {i : Nat} (hmarker : certBegin <+: text)
    (hnext : certBegin <+: text.drop (i + 1)) : certBegin.length ≤ i + 1 := by
  by_contra hlt
  obtain ⟨tail, rfl⟩ := hmarker
  rw [List.drop_append_of_le_length (by omega)] at hnext
  have hlength : certBegin.length = 10 := rfl
  have htake := congrArg (List.take (9 - i)) (List.prefix_iff_eq_take.mp hnext)
  rw [List.take_take, Nat.min_eq_left (by omega),
    List.take_append_of_le_length (by rw [List.length_drop]; omega)] at htake
  have hdiffer : ∀ i < 9, certBegin.take (9 - i) ≠ (certBegin.drop (i + 1)).take (9 - i) := by
    decide
  exact hdiffer i (by omega) htake

/-- A chain that starts with a marker has it in its first piece. -/
theorem certBegin_signing {text : Bytes} (hmarker : certBegin <+: text) :
    certBegin <+: (certPieces text).signing := by
  cases text with
  | nil => exact absurd hmarker (by decide)
  | cons c rest =>
      cases hfind : find certBegin rest with
      | none =>
          rw [certPieces_of_find_eq_none hfind]
          exact hmarker
      | some i =>
          rw [certPieces_of_find_eq_some hfind]
          have hnext := (find_eq_some_iff.mp hfind).2.1
          have hle : certBegin.length ≤ i + 1 := le_of_markers hmarker hnext
          change certBegin <+: (c :: rest).take (i + 1)
          rw [List.prefix_take_iff]
          exact ⟨hmarker, hle⟩

theorem certPieces_starts (text : Bytes) :
    ∀ piece ∈ (certPieces text).others, certBegin <+: piece := by
  induction text with
  | nil => exact fun _ hmem => absurd hmem List.not_mem_nil
  | cons c rest ih =>
      rw [certPieces]
      by_cases hmarker : certBegin <+: rest
      · rw [if_pos hmarker, CertChain.certs, List.forall_mem_cons]
        exact ⟨certBegin_signing hmarker, ih⟩
      · rw [if_neg hmarker]
        exact ih

theorem certPieces_later (text : Bytes) :
    ∀ piece ∈ (certPieces text).certs, ∀ i, 1 ≤ i → ¬ certBegin <+: piece.drop i := by
  induction text with
  | nil =>
      intro piece hmem i _
      have hnil : piece = [] := List.mem_singleton.mp hmem
      rw [hnil, List.drop_nil]
      decide
  | cons c rest ih =>
      have hshort : ∀ i, 1 ≤ i → ¬ certBegin <+: [c].drop i := by
        intro i hi
        rw [List.drop_eq_nil_of_le hi]
        decide
      rw [certPieces]
      by_cases hmarker : certBegin <+: rest
      · rw [if_pos hmarker, CertChain.certs, List.forall_mem_cons]
        exact ⟨hshort, ih⟩
      · rw [if_neg hmarker, CertChain.certs, List.forall_mem_cons]
        rw [CertChain.certs, List.forall_mem_cons] at ih
        refine ⟨?_, ih.2⟩
        intro i hi hleading
        obtain ⟨j, rfl⟩ := Nat.exists_eq_add_of_le' hi
        rw [List.drop_succ_cons] at hleading
        rcases Nat.eq_zero_or_pos j with rfl | hpos
        · exact hmarker (hleading.trans (signing_certPieces rest))
        · exact ih.1 j hpos hleading

/-! ## What is loaded -/

theorem certBegin_cstr {text : Bytes} (hmarker : certBegin <+: text) : certBegin <+: cstr text := by
  obtain ⟨tail, rfl⟩ := hmarker
  have hnul : ∀ c ∈ certBegin, (c != 0) = true := List.all_eq_true.mp (by decide)
  rw [cstr, List.takeWhile_append_of_pos hnul]
  exact List.prefix_append _ _

theorem cstr_prefix_self (text : Bytes) : cstr text <+: text := List.takeWhile_prefix _

theorem notMem_cstr (text : Bytes) : (0 : UInt8) ∉ cstr text := by
  intro hmem
  have hne := List.mem_takeWhile_imp hmem
  simp at hne

/-- The C strings of some texts make up the texts only if no text has a NUL. -/
theorem flatten_cstr_iff (texts : List Bytes) :
    (texts.map cstr).flatten = texts.flatten ↔ (0 : UInt8) ∉ texts.flatten := by
  constructor
  · intro heq hmem
    rw [← heq, List.mem_flatten] at hmem
    obtain ⟨_, hpiece, hzero⟩ := hmem
    obtain ⟨text, _, rfl⟩ := List.mem_map.mp hpiece
    exact notMem_cstr text hzero
  · intro hnul
    have hself : ∀ text ∈ texts, cstr text = text := fun text hmem =>
      cstr_of_notMem fun hzero => hnul (List.mem_flatten.mpr ⟨text, hmem, hzero⟩)
    rw [List.map_congr_left hself, List.map_id']

/-- What the loop hands to `cert_load` are the C strings of the pieces. -/
theorem texts_of_loaded {load : Nat → Bytes → Option α} {index : Nat} {pieces : CertChain Bytes}
    {loaded : CertChain (Bytes × α)} (hloads : LoadsFrom (keepText load) index pieces loaded) :
    loaded.certs.map Prod.fst = pieces.certs.map cstr := by
  obtain ⟨hlength, hload⟩ := hloads
  apply List.ext_getElem?
  intro i
  rw [List.getElem?_map, List.getElem?_map]
  cases hpiece : pieces.certs[i]? with
  | none =>
      have hnone : loaded.certs[i]? = none := by
        rw [List.getElem?_eq_none_iff] at hpiece ⊢
        omega
      rw [hnone]
      rfl
  | some piece =>
      have hcert := hload i piece hpiece
      have hlt : i < loaded.certs.length := by
        rw [hlength]
        exact (List.getElem?_eq_some_iff.mp hpiece).1
      rw [List.getElem?_eq_getElem hlt] at hcert ⊢
      obtain ⟨cert, _, hpair⟩ := Option.map_eq_some_iff.mp hcert
      rw [← hpair]
      rfl

def CertChain.map {β : Type} (f : α → β) (chain : CertChain α) : CertChain β :=
  ⟨f chain.signing, chain.others.map f⟩

theorem CertChain.certs_map {β : Type} (f : α → β) (chain : CertChain α) :
    (chain.map f).certs = chain.certs.map f := rfl

/-- Keeping the texts changes nothing for the certificates. -/
theorem certLoop_keepText (load : Nat → Bytes → Option α) (fuel index : Nat) (text : Bytes) :
    certLoop load fuel index text =
      (certLoop (keepText load) fuel index text).map (CertChain.map Prod.snd) := by
  induction fuel generalizing index text with
  | zero => rfl
  | succ fuel ih =>
      unfold certLoop
      cases find certBegin (text.drop 1) with
      | none =>
          dsimp only
          rw [keepText, Option.map_map, Option.map_map]
          rfl
      | some cend =>
          dsimp only
          rw [ih, keepText]
          cases load index (cstr (text.take (cend + 1))) with
          | none => rfl
          | some cert =>
              dsimp only [Option.map_some]
              rw [Option.map_map, Option.map_map]
              rfl

/-! ## What is pushed -/

/-- The certificates whose `sk_X509_push` succeeds. -/
def pushed (push : Nat → Bool) : Nat → List α → List α
  | _, [] => []
  | index, cert :: certs =>
      if push index then cert :: pushed push (index + 1) certs else pushed push (index + 1) certs

theorem pushCerts_certArray (push : Nat → Bool) (index : Nat) (stack certs : List α) :
    pushCerts push index stack (certArray certs) = some (stack ++ pushed push index certs) := by
  induction certs generalizing index stack with
  | nil => rw [pushed, List.append_nil]; rfl
  | cons cert certs ih =>
      change pushCerts push (index + 1) (if push index then stack ++ [cert] else stack)
        (certArray certs) = _
      rw [ih, pushed]
      split
      · rw [List.append_assoc, List.singleton_append]
      · rfl

theorem length_pushed_le (push : Nat → Bool) (index : Nat) (certs : List α) :
    (pushed push index certs).length ≤ certs.length := by
  induction certs generalizing index with
  | nil => exact Nat.le_refl _
  | cons cert certs ih =>
      have hrest := ih (index + 1)
      rw [pushed]
      split
      · rw [List.length_cons, List.length_cons]
        omega
      · rw [List.length_cons]
        omega

theorem pushed_eq_self_iff (push : Nat → Bool) (index : Nat) (certs : List α) :
    pushed push index certs = certs ↔ ∀ i < certs.length, push (index + i) = true := by
  induction certs generalizing index with
  | nil => exact iff_of_true rfl fun i hi => absurd hi (Nat.not_lt_zero i)
  | cons cert certs ih =>
      rw [List.length_cons, Nat.forall_lt_succ_left, pushed, Nat.add_zero]
      have hshift : (∀ i < certs.length, push (index + (i + 1)) = true) ↔
          ∀ i < certs.length, push (index + 1 + i) = true := by
        simp only [Nat.add_assoc, Nat.add_comm 1]
      rw [hshift, ← ih]
      by_cases hpush : push index = true
      · rw [if_pos hpush, List.cons_inj_right]
        exact ⟨fun h => ⟨hpush, h⟩, fun h => h.2⟩
      · rw [if_neg hpush]
        refine iff_of_false (fun heq => ?_) fun h => hpush h.1
        have hlength := length_pushed_le push (index + 1) certs
        rw [heq, List.length_cons] at hlength
        omega

/-- The stack is made of the certificates whose push succeeds. -/
theorem certStackBuild_eq_some_iff {sys : Sys} {t : Nat} {certs stack : List sys.X509} :
    certStackBuild sys t (certArray certs) = some stack ↔
      sys.skX509NewNull t = true ∧ stack = pushed (sys.skX509Push t) 0 certs := by
  unfold certStackBuild
  rw [pushCerts_certArray, List.nil_append]
  split
  next hnew => simp [hnew, eq_comm]
  next hnew => simp [hnew]

/-! ## The chain -/

/-- The loop ends, its texts are the whole chain, and the stack has the certificate of every
text. -/
def ChainKept (load : Nat → Bytes → Option α) (push : Nat → Bool) (text : Bytes) : Prop :=
  ∃ loaded : CertChain (Bytes × α),
    certLoop (keepText load) (text.length + 1) 0 text = some loaded ∧
      SplitsExactly text loaded.certs ∧
      certLoop load (text.length + 1) 0 text = some (loaded.map Prod.snd) ∧
      pushCerts push 0 [] (certArray (loaded.map Prod.snd).certs) = some (loaded.map Prod.snd).certs

/-- What is loaded of the chain, apart from what stands behind a NUL. -/
theorem splitsExactly_iff {text : Bytes} {loaded : List (Bytes × α)} (htext : text ≠ [])
    (htexts : loaded.map Prod.fst = (certPieces text).certs.map cstr) :
    SplitsExactly text loaded ↔ (0 : UInt8) ∉ text := by
  have hwhole : (loaded.map Prod.fst).flatten = text ↔ (0 : UInt8) ∉ text := by
    rw [htexts]
    have hiff := flatten_cstr_iff (certPieces text).certs
    rwa [flatten_certPieces] at hiff
  have hmem : ∀ piece ∈ loaded, ∃ source ∈ (certPieces text).certs, piece.1 = cstr source := by
    intro piece hpiece
    have hfst : piece.1 ∈ loaded.map Prod.fst := List.mem_map_of_mem hpiece
    rw [htexts] at hfst
    obtain ⟨source, hsource, heq⟩ := List.mem_map.mp hfst
    exact ⟨source, hsource, heq.symm⟩
  -- Number and first lines are those of the pieces, whether there is a NUL or not.
  refine ⟨fun hsplit => hwhole.mp hsplit.whole, fun hnul => ⟨hwhole.mpr hnul, ?_, ?_, ?_⟩⟩
  · have hlength := congrArg List.length htexts
    rwa [List.length_map, List.length_map, length_certPieces_of_ne_nil htext] at hlength
  · intro piece hpiece
    have hfst : piece.1 ∈ (loaded.map Prod.fst).tail := by
      rw [← List.map_tail]
      exact List.mem_map_of_mem hpiece
    rw [htexts, ← List.map_tail] at hfst
    obtain ⟨source, hsource, heq⟩ := List.mem_map.mp hfst
    rw [← heq]
    exact certBegin_cstr (certPieces_starts text source hsource)
  · intro piece hpiece i hi hmarker
    obtain ⟨source, hsource, heq⟩ := hmem piece hpiece
    rw [heq] at hmarker
    exact certPieces_later text source hsource i hi
      (hmarker.trans ((cstr_prefix_self source).drop i))

/-- Nothing of the chain is lost exactly if it has no NUL and every push succeeds. -/
theorem chain_kept_iff (load : Nat → Bytes → Option α) (push : Nat → Bool) (text : Bytes)
    (htext : text ≠ [])
    (haccepts : ∀ index, ∀ piece ∈ (certPieces text).certs, (load index (cstr piece)).isSome) :
    ChainKept load push text ↔
      (0 : UInt8) ∉ text ∧
        ∀ i < 1 + ((certMarkers text).filter (1 ≤ ·)).length, push i = true := by
  have hkept : ∀ index, ∀ piece ∈ (certPieces text).certs,
      (keepText load index (cstr piece)).isSome := by
    intro index piece hmem
    rw [keepText, Option.isSome_map]
    exact haccepts index piece hmem
  -- The loop and the stack do not influence each other: each has its own condition.
  have hfuel : text.length < text.length + 1 := Nat.lt_succ_self _
  obtain ⟨loaded, hloop⟩ : ∃ loaded, certLoop (keepText load) (text.length + 1) 0 text =
      some loaded := Option.isSome_iff_exists.mp (certLoop_isSome hfuel fun i piece hpiece =>
      hkept _ piece (List.mem_of_getElem? hpiece))
  have htexts := texts_of_loaded (certLoop_eq_some hloop)
  have hlength : loaded.certs.length = 1 + ((certMarkers text).filter (1 ≤ ·)).length := by
    have hmapped := congrArg List.length htexts
    rwa [List.length_map, List.length_map, length_certPieces_of_ne_nil htext] at hmapped
  have hstack : pushCerts push 0 [] (certArray (loaded.map Prod.snd).certs) =
        some (loaded.map Prod.snd).certs ↔
      ∀ i < 1 + ((certMarkers text).filter (1 ≤ ·)).length, push i = true := by
    have hpushed := pushed_eq_self_iff push 0 (loaded.map Prod.snd).certs
    rw [CertChain.certs_map, List.length_map, hlength] at hpushed
    rw [pushCerts_certArray, List.nil_append, Option.some.injEq, CertChain.certs_map, hpushed]
    simp only [Nat.zero_add]
  have hcerts : certLoop load (text.length + 1) 0 text = some (loaded.map Prod.snd) := by
    rw [certLoop_keepText, hloop, Option.map_some]
  constructor
  · rintro ⟨loaded', hloop', hsplit, _, hpush⟩
    rw [hloop] at hloop'
    cases hloop'
    exact ⟨(splitsExactly_iff htext htexts).mp hsplit, hstack.mp hpush⟩
  · rintro ⟨hnul, hpush⟩
    exact ⟨loaded, hloop, (splitsExactly_iff htext htexts).mpr hnul, hcerts, hstack.mpr hpush⟩

/-- Two certificates that load, in a chain without a NUL. -/
theorem chain_kept_two :
    ChainKept (fun _ text => some text) (fun _ => true) (ascii "-----BEGIN A-----BEGIN B") := by
  refine (chain_kept_iff _ _ _ (by decide) fun _ _ _ => rfl).mpr ⟨by decide, fun _ _ => rfl⟩

/-- What stands behind a NUL is lost. -/
theorem nul_not_kept : ¬ ChainKept (fun _ text => some text) (fun _ => true) [65, 0, 66] := by
  rintro ⟨loaded, hloop, hsplit, _⟩
  have hpieces : certLoop (keepText fun _ text => some text) 4 0 [65, 0, 66] =
      some ⟨([65], [65]), []⟩ := rfl
  have hwhole := hsplit.whole
  rw [← Option.some.inj (hpieces.symm.trans hloop)] at hwhole
  revert hwhole
  decide

end RemoteAttestation

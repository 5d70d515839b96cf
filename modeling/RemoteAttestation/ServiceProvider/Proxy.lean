import RemoteAttestation.Foundation.Position
import RemoteAttestation.Report.IasRequest

/-! # Proxy URLs

`get_proxy` takes a URL apart by the positions of colons and slashes, and `proxy_url` puts one
together again. The scanner admits any number of slashes, looks for the colon of the port
before it looks for a slash, and converts the text of the port with `stoul`.
-/

namespace RemoteAttestation

/-! ## The code -/

/-- `tolower`. -/
def toLower (c : UInt8) : UInt8 := if 65 ≤ c ∧ c ≤ 90 then c + 32 else c

/-- `std::stoul`: `none` is an exception. -/
def stoul (text : Bytes) : Option Nat :=
  match scanDecimal text with
  | none => none
  | some (negative, size, _) =>
      if 2 ^ 64 ≤ size then none
      else some (if negative then (2 ^ 64 - size) % 2 ^ 64 else size)

/-- The port of a protocol. -/
def protoPort (proto : Bytes) : Option Nat :=
  if proto = ascii "https" then some 443 else if proto = ascii "http" then some 80 else none

/-- The position behind a position; the one behind `npos` is 0. -/
def positionAfter : Option Nat → Nat
  | none => 0
  | some i => i + 1

/-- `get_proxy`: the server and the port, or `none` for a return value of 0. -/
def getProxy (url : Bytes) : Option (Bytes × Nat) :=
  let lcurl := (cstr url).map toLower
  let idx1 := findFrom (· == 58) lcurl 0
  match protoPort (substr lcurl 0 idx1) with
  | none => none
  | some port =>
      match findFrom (· != 47) lcurl (positionAfter idx1) with
      | none => none
      | some idx1 =>
          match findFrom (· == 58) lcurl idx1 with
          | none => some (substr lcurl idx1 (findFrom (· == 47) lcurl idx1), port)
          | some idx2 =>
              let srv := substr lcurl idx1 (some idx2)
              let sport := substr lcurl (idx2 + 1) (findFrom (· == 47) lcurl (idx2 + 1))
              match stoul sport with
              | none => none
              | some port => some (srv, port % 2 ^ 32)

inductive ProxyMode where
  | none
  | auto
  | force
deriving DecidableEq

/-- The part of an `IAS_Connection` that is about the proxy. -/
structure ProxySettings where
  server : Bytes
  port : UInt16
  mode : ProxyMode
deriving DecidableEq

/-- `IAS_Connection::proxy`. -/
def ProxySettings.proxy (_ : ProxySettings) (server : Bytes) (port : UInt16) : ProxySettings where
  server := cstr server
  port := port
  mode := .force

/-- What the constructor of `IAS_Connection` leaves. -/
def ProxySettings.initial : ProxySettings := ⟨[], 80, .auto⟩

/-- What `main` makes of a server and a port that `get_proxy` returned. -/
def ProxySettings.setup (settings : ProxySettings) (server : Bytes) (port : Nat) : ProxySettings :=
  settings.proxy server (UInt16.ofNat port)

/-- `proxy_url`. -/
def ProxySettings.proxyUrl (settings : ProxySettings) : Bytes :=
  if settings.server = [] then []
  else ascii "http://" ++ settings.server ++
    (if settings.port ≠ 80 then ascii ":" ++ decimal settings.port.toNat else [])

/-! ## What is expected -/

/-- The part of a URL behind a separator that may be missing. -/
def optionalPart (separator : UInt8) : Option Bytes → Bytes
  | none => []
  | some part => separator :: part

/-- A URL `scheme://host[:port][/rest]`. -/
structure ProxyUrl where
  https : Bool
  scheme : Bytes
  scheme_eq : scheme.map toLower = if https then ascii "https" else ascii "http"
  host : Bytes
  host_ne_nil : host ≠ []
  host_plain : ∀ c ∈ host, c ≠ 58 ∧ c ≠ 47
  port : Option Bytes
  port_digits : ∀ digits, port = some digits → digits ≠ [] ∧ ∀ c ∈ digits, isDigit c = true
  rest : Option Bytes

namespace ProxyUrl

def text (url : ProxyUrl) : Bytes :=
  url.scheme ++ ascii "://" ++ url.host ++ optionalPart 58 url.port ++ optionalPart 47 url.rest

/-- The port of the URL, or that of its scheme. -/
def portNumber (url : ProxyUrl) : Nat :=
  match url.port with
  | some digits => digitsValue digits
  | none => if url.https then 443 else 80

/-- A port that a connection can be made to. -/
def PortInRange (url : ProxyUrl) : Prop := 1 ≤ url.portNumber ∧ url.portNumber ≤ 65535

end ProxyUrl

/-- The documented reading of a text, and nothing else, is accepted, and the port survives
the way into the connection. -/
structure ProxyParsed (text : CString) : Prop where
  accepts : ∀ url : ProxyUrl, url.text = text.bytes → url.PortInRange →
    getProxy text.bytes = some (url.host.map toLower, url.portNumber) ∧
      ∀ settings : ProxySettings,
        (settings.setup (url.host.map toLower) url.portNumber).port.toNat = url.portNumber
  refuses : (¬ ∃ url : ProxyUrl, url.text = text.bytes ∧ url.PortInRange) →
    getProxy text.bytes = none

/-! ## What the scanner looks at -/

/-- The text before the first colon. -/
def scannedScheme (text : Bytes) : Bytes := text.takeWhile (· != 58)

/-- The text from the host on: all behind the first colon and any slashes, and without a colon
the text itself. -/
def scannedBody (text : Bytes) : Bytes :=
  (if 58 ∈ text then (text.dropWhile (· != 58)).tail else text).dropWhile (· == 47)

/-- The text of the port, between a colon and a slash. -/
def scannedPort (body : Bytes) : Option Bytes :=
  if 58 ∈ body then some ((body.dropWhile (· != 58)).tail.takeWhile (· != 47)) else none

/-- What is made of the text from the host on. -/
def scanAuthority (port : Nat) (body : Bytes) : Option (Bytes × Nat) :=
  if body = [] then none
  else match scannedPort body with
    | none => some (body.takeWhile (· != 47), port)
    | some sport => (stoul sport).map fun n => (body.takeWhile (· != 58), n % 2 ^ 32)

theorem not_beq_eq_bne (d : UInt8) : (fun c : UInt8 => !(c == d)) = (· != d) := rfl

theorem not_bne_eq_beq (d : UInt8) : (fun c : UInt8 => !(c != d)) = (· == d) := by
  funext c
  rw [bne, Bool.not_not]

/-- A search for a character, from a position on. -/
theorem findFrom_char_eq_none_iff {text : Bytes} {c : UInt8} {pos : Nat} :
    findFrom (· == c) text pos = none ↔ c ∉ text.drop pos := by
  rw [findFrom_eq_none_iff]
  constructor
  · intro hall hmem
    have hself := hall c hmem
    rw [beq_self_eq_true] at hself
    cases hself
  · intro hnot d hd
    rw [beq_eq_false_iff_ne]
    rintro rfl
    exact hnot hd

/-- The text behind a character that was found. -/
theorem drop_succ_of_findFrom {text : Bytes} {c : UInt8} {pos i : Nat}
    (hfind : findFrom (· == c) text pos = some i) :
    text.drop (i + 1) = ((text.drop pos).dropWhile (· != c)).tail := by
  rw [← List.tail_drop, drop_of_findFrom hfind, not_beq_eq_bne]

theorem mem_drop_of_findFrom {text : Bytes} {c : UInt8} {pos i : Nat}
    (hfind : findFrom (· == c) text pos = some i) : c ∈ text.drop pos := by
  by_contra hnot
  rw [findFrom_char_eq_none_iff.mpr hnot] at hfind
  cases hfind

section

variable (lcurl : Bytes)

/-- The body begins behind the colon of the scheme and the slashes that follow it. -/
theorem scannedBody_eq :
    scannedBody lcurl =
      (lcurl.drop (positionAfter (findFrom (· == 58) lcurl 0))).dropWhile (· == 47) := by
  unfold scannedBody
  cases hcolon : findFrom (· == 58) lcurl 0 with
  | none =>
      rw [findFrom_char_eq_none_iff, List.drop_zero] at hcolon
      rw [if_neg hcolon]
      rfl
  | some i =>
      have hmem := mem_drop_of_findFrom hcolon
      rw [List.drop_zero] at hmem
      rw [if_pos hmem, positionAfter, drop_succ_of_findFrom hcolon, List.drop_zero]

theorem scannedBody_of_findFrom_none
    (hhost : findFrom (· != 47) lcurl (positionAfter (findFrom (· == 58) lcurl 0)) = none) :
    scannedBody lcurl = [] := by
  rw [scannedBody_eq, List.dropWhile_eq_nil_iff]
  intro c hc
  have hslash := findFrom_eq_none_iff.mp hhost c hc
  rwa [bne_eq_false_iff_eq, ← beq_iff_eq] at hslash

theorem scannedBody_of_findFrom {idx : Nat}
    (hhost : findFrom (· != 47) lcurl (positionAfter (findFrom (· == 58) lcurl 0)) = some idx) :
    scannedBody lcurl ≠ [] ∧ lcurl.drop idx = scannedBody lcurl := by
  have hdrop : lcurl.drop idx = scannedBody lcurl := by
    rw [drop_of_findFrom hhost, not_bne_eq_beq, ← scannedBody_eq]
  refine ⟨fun hempty => ?_, hdrop⟩
  rw [scannedBody_eq, List.dropWhile_eq_nil_iff] at hempty
  have hnone : findFrom (· != 47) lcurl (positionAfter (findFrom (· == 58) lcurl 0)) = none := by
    rw [findFrom_eq_none_iff]
    intro c hc
    rw [bne_eq_false_iff_eq, ← beq_iff_eq]
    exact hempty c hc
  rw [hnone] at hhost
  cases hhost

end

/-- The positions that the scanner finds delimit these texts. -/
theorem getProxy_eq (url : Bytes) :
    getProxy url =
      (protoPort (scannedScheme ((cstr url).map toLower))).bind fun port =>
        scanAuthority port (scannedBody ((cstr url).map toLower)) := by
  unfold getProxy
  generalize (cstr url).map toLower = lcurl
  dsimp only
  have hscheme : substr lcurl 0 (findFrom (· == 58) lcurl 0) = scannedScheme lcurl := by
    rw [substr_findFrom, List.drop_zero]
    rfl
  rw [hscheme]
  cases protoPort (scannedScheme lcurl) with
  | none => rfl
  | some port =>
      rw [Option.bind_some]
      dsimp only
      cases hhost : findFrom (· != 47) lcurl (positionAfter (findFrom (· == 58) lcurl 0)) with
      | none =>
          rw [scannedBody_of_findFrom_none lcurl hhost]
          rfl
      | some idx1 =>
          obtain ⟨hne, hdrop⟩ := scannedBody_of_findFrom lcurl hhost
          rw [scanAuthority, if_neg hne, scannedPort, ← hdrop]
          dsimp only
          -- The next colon is the one of the port, wherever it is.
          cases hport : findFrom (· == 58) lcurl idx1 with
          | none =>
              rw [if_neg (findFrom_char_eq_none_iff.mp hport), substr_findFrom]
              rfl
          | some idx2 =>
              have hserver : substr lcurl idx1 (some idx2) =
                  (lcurl.drop idx1).takeWhile (· != 58) := by
                rw [← hport, substr_findFrom]
                rfl
              rw [if_pos (mem_drop_of_findFrom hport)]
              dsimp only
              rw [hserver, substr_findFrom, drop_succ_of_findFrom hport, not_beq_eq_bne]
              cases stoul _ with
              | none => rfl
              | some n => rfl

/-! ## Texts that are scanned -/

/-- The scheme is known, something follows it that is not a slash, and if there is a colon in
it, a number follows the colon. -/
def ScannedAsProxy (text : Bytes) : Prop :=
  (protoPort (scannedScheme (text.map toLower))).isSome ∧ scannedBody (text.map toLower) ≠ [] ∧
    ∀ sport, scannedPort (scannedBody (text.map toLower)) = some sport → (stoul sport).isSome

theorem scanAuthority_isSome_iff (port : Nat) (body : Bytes) :
    (scanAuthority port body).isSome ↔
      body ≠ [] ∧ ∀ sport, scannedPort body = some sport → (stoul sport).isSome := by
  unfold scanAuthority
  by_cases hbody : body = []
  · rw [if_pos hbody]
    exact iff_of_false Bool.false_ne_true fun h => h.1 hbody
  · rw [if_neg hbody]
    cases scannedPort body with
    | none => exact iff_of_true rfl ⟨hbody, fun sport h => nomatch h⟩
    | some sport =>
        dsimp only
        rw [Option.isSome_map]
        simp [hbody]

theorem getProxy_isSome_iff (text : CString) :
    (getProxy text.bytes).isSome ↔ ScannedAsProxy text.bytes := by
  rw [getProxy_eq, cstr_of_notMem text.noNul, ScannedAsProxy]
  cases protoPort (scannedScheme (text.bytes.map toLower)) with
  | none => exact iff_of_false Bool.false_ne_true fun h => absurd h.1 Bool.false_ne_true
  | some port =>
      rw [Option.bind_some, scanAuthority_isSome_iff]
      exact ⟨fun h => ⟨rfl, h⟩, fun h => h.2⟩

/-! ## URLs of the documented form -/

/-- Neither separator is the lower case of another character, and digits have no case. -/
theorem toLower_facts (c : UInt8) :
    (toLower c = 58 ↔ c = 58) ∧ (toLower c = 47 ↔ c = 47) ∧ (isDigit c = true → toLower c = c) ∧
      (isDigit c = true → c ≠ 58 ∧ c ≠ 47) := by
  revert c
  exact forall_uint8 (by decide +kernel)

theorem mem_map_toLower_colon {text : Bytes} : 58 ∈ text.map toLower ↔ 58 ∈ text := by
  rw [List.mem_map]
  constructor
  · rintro ⟨c, hmem, hc⟩
    rwa [← (toLower_facts c).1.mp hc]
  · intro hmem
    exact ⟨58, hmem, (toLower_facts 58).1.mpr rfl⟩

theorem bne_of_notMem {d : UInt8} {text : Bytes} (htext : d ∉ text) :
    ∀ c ∈ text, (c != d) = true := by
  intro c hc
  rw [bne_iff_ne]
  rintro rfl
  exact htext hc

theorem takeWhile_bne_append {d : UInt8} {text : Bytes} (htext : d ∉ text) (rest : Bytes) :
    (text ++ d :: rest).takeWhile (· != d) = text := by
  rw [List.takeWhile_append_of_pos (bne_of_notMem htext),
    List.takeWhile_cons_of_neg (by simp), List.append_nil]

theorem dropWhile_bne_append {d : UInt8} {text : Bytes} (htext : d ∉ text) (rest : Bytes) :
    (text ++ d :: rest).dropWhile (· != d) = d :: rest := by
  rw [List.dropWhile_append_of_pos (bne_of_notMem htext),
    List.dropWhile_cons_of_neg (by simp)]

theorem takeWhile_bne_optional {d : UInt8} {text : Bytes} (htext : d ∉ text)
    (part : Option Bytes) : (text ++ optionalPart d part).takeWhile (· != d) = text := by
  cases part with
  | none =>
      rw [optionalPart, List.append_nil]
      exact List.takeWhile_eq_self_iff.mpr (bne_of_notMem htext)
  | some part => exact takeWhile_bne_append htext part

/-- A number of digits is converted unless it is too large. -/
theorem stoul_digits {digits : Bytes} (hne : digits ≠ [])
    (hdigits : ∀ c ∈ digits, isDigit c = true) :
    stoul digits = if 2 ^ 64 ≤ digitsValue digits then none else some (digitsValue digits) := by
  rw [stoul, scanDecimal_digits hne hdigits]
  rfl

namespace ProxyUrl

variable (url : ProxyUrl)

/-- The URL from the host on, in lower case. -/
def lowerBody : Bytes :=
  url.host.map toLower ++ (optionalPart 58 url.port ++ optionalPart 47 (url.rest.map (·.map toLower)))

theorem lower_text :
    url.text.map toLower =
      (if url.https then ascii "https" else ascii "http") ++ 58 :: 47 :: 47 :: url.lowerBody := by
  have hport : (optionalPart 58 url.port).map toLower = optionalPart 58 url.port := by
    cases hdigits : url.port with
    | none => rfl
    | some digits =>
        have hcase : ∀ c ∈ digits, toLower c = c := fun c hc =>
          (toLower_facts c).2.2.1 ((url.port_digits digits hdigits).2 c hc)
        have hself : digits.map toLower = digits := by
          rw [List.map_congr_left hcase, List.map_id']
        rw [optionalPart, List.map_cons, hself]
        rfl
  have hrest : (optionalPart 47 url.rest).map toLower =
      optionalPart 47 (url.rest.map (·.map toLower)) := by
    cases url.rest with
    | none => rfl
    | some rest => rfl
  have hseparator : (ascii "://").map toLower = [58, 47, 47] := by decide
  unfold text lowerBody
  rw [List.map_append, List.map_append, List.map_append, List.map_append, url.scheme_eq, hport,
    hrest, hseparator]
  simp only [List.append_assoc, List.cons_append, List.nil_append]

theorem lowerHost_plain : 58 ∉ url.host.map toLower ∧ 47 ∉ url.host.map toLower := by
  constructor
  · intro hmem
    obtain ⟨c, hc, hcolon⟩ := List.mem_map.mp hmem
    exact (url.host_plain c hc).1 ((toLower_facts c).1.mp hcolon)
  · intro hmem
    obtain ⟨c, hc, hslash⟩ := List.mem_map.mp hmem
    exact (url.host_plain c hc).2 ((toLower_facts c).2.1.mp hslash)

theorem notMem_scheme : 58 ∉ (if url.https then ascii "https" else ascii "http") := by
  cases url.https with
  | false => decide
  | true => decide

theorem lowerBody_ne_nil : url.lowerBody ≠ [] := by
  intro hnil
  have hhost := (List.append_eq_nil_iff.mp hnil).1
  exact url.host_ne_nil (List.map_eq_nil_iff.mp hhost)

/-- The scheme and the slashes are what the scanner takes for them. -/
theorem scanned :
    scannedScheme (url.text.map toLower) = (if url.https then ascii "https" else ascii "http") ∧
      scannedBody (url.text.map toLower) = url.lowerBody := by
  rw [url.lower_text]
  refine ⟨takeWhile_bne_append url.notMem_scheme _, ?_⟩
  have hslashes : (47 :: 47 :: url.lowerBody).dropWhile (· == 47) = url.lowerBody := by
    rw [List.dropWhile_cons_of_pos (by rfl), List.dropWhile_cons_of_pos (by rfl)]
    have hhost := url.host_ne_nil
    have hplain := url.lowerHost_plain.2
    unfold lowerBody
    cases hlower : url.host.map toLower with
    | nil => exact absurd (List.map_eq_nil_iff.mp hlower) hhost
    | cons c rest =>
        rw [hlower] at hplain
        have hc : c ≠ 47 := fun h => hplain (h ▸ List.mem_cons_self)
        rw [List.cons_append, List.dropWhile_cons_of_neg (by simp [hc])]
  unfold scannedBody
  rw [if_pos (List.mem_append_right _ List.mem_cons_self),
    dropWhile_bne_append url.notMem_scheme, List.tail_cons, hslashes]

theorem getProxy_text (hnul : 0 ∉ url.text) :
    getProxy url.text = scanAuthority (if url.https then 443 else 80) url.lowerBody := by
  have hport : protoPort (if url.https then ascii "https" else ascii "http") =
      some (if url.https then 443 else 80) := by
    cases url.https with
    | false => decide
    | true => decide
  rw [getProxy_eq, cstr_of_notMem hnul, url.scanned.1, url.scanned.2, hport, Option.bind_some]

/-- A port that is given is read up to the slash. -/
theorem scanAuthority_of_port {digits : Bytes} (hport : url.port = some digits) (port : Nat) :
    scanAuthority port url.lowerBody =
      if 2 ^ 64 ≤ digitsValue digits then none
      else some (url.host.map toLower, digitsValue digits % 2 ^ 32) := by
  obtain ⟨hne, hdigits⟩ := url.port_digits digits hport
  have hbody : url.lowerBody = url.host.map toLower ++
      58 :: (digits ++ optionalPart 47 (url.rest.map (·.map toLower))) := by
    rw [lowerBody, hport]
    rfl
  have hslash : 47 ∉ digits := fun hmem => ((toLower_facts 47).2.2.2 (hdigits 47 hmem)).2 rfl
  have hscanned : scannedPort url.lowerBody = some digits := by
    rw [scannedPort, hbody, if_pos (List.mem_append_right _ List.mem_cons_self),
      dropWhile_bne_append url.lowerHost_plain.1, List.tail_cons, takeWhile_bne_optional hslash]
  rw [scanAuthority, if_neg url.lowerBody_ne_nil, hscanned]
  dsimp only
  rw [stoul_digits hne hdigits, hbody, takeWhile_bne_append url.lowerHost_plain.1]
  split
  · rfl
  · rfl

/-- Without a port and without a colon the rest is cut off. -/
theorem scanAuthority_of_plain (hport : url.port = none)
    (hrest : ∀ rest, url.rest = some rest → 58 ∉ rest) (port : Nat) :
    scanAuthority port url.lowerBody = some (url.host.map toLower, port) := by
  have hbody : url.lowerBody = url.host.map toLower ++
      optionalPart 47 (url.rest.map (·.map toLower)) := by
    rw [lowerBody, hport]
    rfl
  have hcolon : 58 ∉ url.lowerBody := by
    rw [hbody, List.mem_append, not_or]
    refine ⟨url.lowerHost_plain.1, ?_⟩
    cases hsome : url.rest with
    | none => exact List.not_mem_nil
    | some rest =>
        rw [Option.map_some, optionalPart, List.mem_cons, not_or, mem_map_toLower_colon]
        exact ⟨by decide, hrest rest hsome⟩
  rw [scanAuthority, if_neg url.lowerBody_ne_nil, scannedPort, if_neg hcolon]
  dsimp only
  rw [hbody, takeWhile_bne_optional url.lowerHost_plain.2]

/-- Without a port but with a colon the rest becomes part of the server. -/
theorem slash_mem_of_scanAuthority (hport : url.port = none) {rest : Bytes}
    (hrest : url.rest = some rest) (hcolon : 58 ∈ rest) {port : Nat} {server : Bytes}
    {number : Nat} (hscan : scanAuthority port url.lowerBody = some (server, number)) :
    47 ∈ server := by
  have hbody : url.lowerBody = url.host.map toLower ++ 47 :: rest.map toLower := by
    rw [lowerBody, hport, hrest]
    rfl
  have hmem : 58 ∈ url.lowerBody := by
    rw [hbody]
    exact List.mem_append_right _ (List.mem_cons_of_mem _ (mem_map_toLower_colon.mpr hcolon))
  rw [scanAuthority, if_neg url.lowerBody_ne_nil, scannedPort, if_pos hmem] at hscan
  obtain ⟨n, _, hserver⟩ := Option.map_eq_some_iff.mp hscan
  have hhost := bne_of_notMem url.lowerHost_plain.1
  rw [← (Prod.mk.inj hserver).1, hbody, List.takeWhile_append_of_pos hhost,
    List.takeWhile_cons_of_pos (by rfl)]
  exact List.mem_append_right _ List.mem_cons_self

/-- The host ends at the first separator. -/
theorem dropWhile_lowerBody :
    url.lowerBody.dropWhile (fun c => c != 58 && c != 47) =
      optionalPart 58 url.port ++ optionalPart 47 (url.rest.map (·.map toLower)) := by
  have hplain : ∀ c ∈ url.host.map toLower, (c != 58 && c != 47) = true := by
    intro c hc
    rw [Bool.and_eq_true]
    exact ⟨bne_of_notMem url.lowerHost_plain.1 c hc, bne_of_notMem url.lowerHost_plain.2 c hc⟩
  rw [lowerBody, List.dropWhile_append_of_pos hplain]
  cases url.port with
  | none =>
      cases url.rest with
      | none => rfl
      | some rest => exact List.dropWhile_cons_of_neg (by simp)
  | some digits => exact List.dropWhile_cons_of_neg (by simp)

/-- The port ends at the first character that is no digit. -/
theorem port_eq (rest : Option Bytes) :
    url.port = if (optionalPart 58 url.port ++ optionalPart 47 rest).head? = some 58 then
      some ((optionalPart 58 url.port ++ optionalPart 47 rest).tail.takeWhile isDigit)
      else none := by
  cases hsome : url.port with
  | none =>
      cases rest with
      | none => rfl
      | some rest => rfl
  | some digits =>
      have hdigits := (url.port_digits digits hsome).2
      have hstop : (optionalPart 47 rest).takeWhile isDigit = [] := by
        cases rest with
        | none => rfl
        | some rest => exact List.takeWhile_cons_of_neg (by decide)
      rw [if_pos (by rfl), optionalPart, List.cons_append, List.tail_cons,
        List.takeWhile_append_of_pos hdigits, hstop, List.append_nil]

/-- A text has one port. -/
theorem portNumber_unique {url url' : ProxyUrl} (htext : url.text = url'.text) :
    url.portNumber = url'.portNumber := by
  have hscheme : (if url.https then ascii "https" else ascii "http") =
      if url'.https then ascii "https" else ascii "http" := by
    rw [← url.scanned.1, htext, url'.scanned.1]
  have hbody : url.lowerBody = url'.lowerBody := by
    rw [← url.scanned.2, htext, url'.scanned.2]
  have hhttps : url.https = url'.https := by
    revert hscheme
    cases url.https with
    | false =>
        cases url'.https with
        | false => exact fun _ => rfl
        | true => decide
    | true =>
        cases url'.https with
        | false => decide
        | true => exact fun _ => rfl
  have hport : url.port = url'.port := by
    rw [url.port_eq (url.rest.map (·.map toLower)), url'.port_eq (url'.rest.map (·.map toLower)),
      ← dropWhile_lowerBody, ← dropWhile_lowerBody, hbody]
  rw [portNumber, portNumber, hport, hhttps]

/-- A URL with a port is not expected to have a colon anywhere else, and a port out of range is
only refused when it does not fit into 64 bits. -/
def ReadExactly (url : ProxyUrl) : Prop :=
  (url.PortInRange → url.port = none → ∀ rest, url.rest = some rest → 58 ∉ rest) ∧
    (¬ url.PortInRange → 2 ^ 64 ≤ url.portNumber)

theorem portInRange_of_none {url : ProxyUrl} (hport : url.port = none) : url.PortInRange := by
  rw [PortInRange, portNumber, hport]
  cases url.https with
  | false => decide
  | true => decide

/-- What comes of a URL with a port in range. -/
theorem accepts_iff {url : ProxyUrl} (hnul : 0 ∉ url.text) (hrange : url.PortInRange) :
    getProxy url.text = some (url.host.map toLower, url.portNumber) ↔
      (url.port = none → ∀ rest, url.rest = some rest → 58 ∉ rest) := by
  rw [url.getProxy_text hnul]
  cases hport : url.port with
  | none =>
      have hnumber : (if url.https then 443 else 80) = url.portNumber := by
        rw [portNumber, hport]
      constructor
      · intro hscan _ rest hrest hcolon
        exact url.lowerHost_plain.2
          (url.slash_mem_of_scanAuthority hport hrest hcolon hscan)
      · intro hrest
        rw [url.scanAuthority_of_plain hport (hrest rfl), hnumber]
  | some digits =>
      refine iff_of_true ?_ fun h => nomatch h
      have hnumber : url.portNumber = digitsValue digits := by rw [portNumber, hport]
      have hle : digitsValue digits ≤ 65535 := hnumber ▸ hrange.2
      rw [url.scanAuthority_of_port hport, if_neg (by omega), Nat.mod_eq_of_lt (by omega), hnumber]

/-- What comes of a URL with a port out of range. -/
theorem refuses_iff {url : ProxyUrl} (hnul : 0 ∉ url.text) (hrange : ¬ url.PortInRange) :
    getProxy url.text = none ↔ 2 ^ 64 ≤ url.portNumber := by
  cases hport : url.port with
  | none => exact absurd (portInRange_of_none hport) hrange
  | some digits =>
      have hnumber : url.portNumber = digitsValue digits := by rw [portNumber, hport]
      rw [url.getProxy_text hnul, url.scanAuthority_of_port hport, hnumber]
      split
      next hlarge => exact iff_of_true rfl hlarge
      next hsmall => exact iff_of_false (fun h => nomatch h) hsmall

end ProxyUrl

/-! ## Parsing -/

theorem ProxySettings.port_setup (settings : ProxySettings) (server : Bytes) {port : Nat}
    (hport : port ≤ 65535) : (settings.setup server port).port.toNat = port :=
  UInt16.toNat_ofNat_of_lt (Nat.lt_of_le_of_lt hport (by decide))

/-- A proxy URL is read as documented exactly if it has the documented form and no colon but
that of its port, with a port in range or beyond 64 bits, or if it has another form and the
scanner has no use for it. -/
theorem proxyParsed_iff (text : CString) :
    ProxyParsed text ↔
      (∀ url : ProxyUrl, url.text = text.bytes → url.ReadExactly) ∧
        ((¬ ∃ url : ProxyUrl, url.text = text.bytes) → ¬ ScannedAsProxy text.bytes) := by
  have hnul : ∀ url : ProxyUrl, url.text = text.bytes → 0 ∉ url.text := by
    intro url htext
    rw [htext]
    exact text.noNul
  constructor
  · intro hparsed
    refine ⟨fun url htext => ⟨fun hrange => ?_, fun hrange => ?_⟩, fun hform hscanned => ?_⟩
    · apply (ProxyUrl.accepts_iff (hnul url htext) hrange).mp
      rw [htext]
      exact (hparsed.accepts url htext hrange).1
    · apply (ProxyUrl.refuses_iff (hnul url htext) hrange).mp
      rw [htext]
      apply hparsed.refuses
      rintro ⟨url', htext', hrange'⟩
      rw [ProxyUrl.PortInRange, ProxyUrl.portNumber_unique (htext'.trans htext.symm)] at hrange'
      exact hrange hrange'
    · have hnone := hparsed.refuses fun ⟨url, htext, _⟩ => hform ⟨url, htext⟩
      rw [← getProxy_isSome_iff, hnone] at hscanned
      cases hscanned
  · rintro ⟨hread, hother⟩
    refine ⟨fun url htext hrange => ⟨?_, fun settings => ?_⟩, fun hform => ?_⟩
    · rw [← htext]
      exact (ProxyUrl.accepts_iff (hnul url htext) hrange).mpr ((hread url htext).1 hrange)
    · exact settings.port_setup _ hrange.2
    · by_cases hurl : ∃ url : ProxyUrl, url.text = text.bytes
      · obtain ⟨url, htext⟩ := hurl
        have hrange : ¬ url.PortInRange := fun hrange => hform ⟨url, htext, hrange⟩
        rw [← htext]
        exact (ProxyUrl.refuses_iff (hnul url htext) hrange).mpr ((hread url htext).2 hrange)
      · have hnone := hother hurl
        rwa [← getProxy_isSome_iff, Option.not_isSome_iff_eq_none] at hnone

/-- A path with a colon in it, which is taken for the colon of the port. -/
def colonUrl : ProxyUrl where
  https := false
  scheme := ascii "http"
  scheme_eq := by decide
  host := ascii "proxy"
  host_ne_nil := by decide
  host_plain := List.forall_iff_forall_mem.mp (by decide)
  port := none
  port_digits := fun _ h => nomatch h
  rest := some (ascii "a:b")

theorem colonUrl_not_parsed :
    getProxy colonUrl.text = none ∧ ¬ ProxyParsed ⟨colonUrl.text, by decide⟩ := by
  have hnone : getProxy colonUrl.text = none := by decide
  refine ⟨hnone, fun hparsed => ?_⟩
  have haccepts := (hparsed.accepts colonUrl rfl (ProxyUrl.portInRange_of_none rfl)).1
  rw [hnone] at haccepts
  cases haccepts

/-! ## Rendering -/

/-- The URL that is put together again. -/
def renderedUrl (host : Bytes) (port : UInt16) (hne : host ≠ [])
    (hplain : ∀ c ∈ host, c ≠ 58 ∧ c ≠ 47) : ProxyUrl where
  https := false
  scheme := ascii "http"
  scheme_eq := by decide
  host := host
  host_ne_nil := hne
  host_plain := hplain
  port := if port ≠ 80 then some (decimal port.toNat) else none
  port_digits := by
    intro digits hdigits
    split at hdigits
    · cases hdigits
      exact ⟨decimal_ne_nil _, decimal_isDigit _⟩
    · cases hdigits
  rest := none

section

variable (host : CString) (port : UInt16) (hne : host.bytes ≠ [])
  (hplain : ∀ c ∈ host.bytes, c ≠ 58 ∧ c ≠ 47)

/-- What `proxy_url` renders is the text of this URL. -/
theorem proxyUrl_eq_text (settings : ProxySettings) :
    (settings.proxy host.bytes port).proxyUrl = (renderedUrl host.bytes port hne hplain).text := by
  rw [ProxySettings.proxyUrl, ProxySettings.proxy, cstr_of_notMem host.noNul, if_neg hne,
    renderedUrl, ProxyUrl.text]
  dsimp only
  by_cases hport : port = 80
  · rw [if_neg (not_not.mpr hport), if_neg (not_not.mpr hport)]
    simp [optionalPart, ascii]
  · rw [if_pos hport, if_pos hport]
    simp [optionalPart, ascii]

theorem zero_notMem_port (url : ProxyUrl) : 0 ∉ optionalPart 58 url.port := by
  have hdigit : isDigit 0 = false := rfl
  cases hsome : url.port with
  | none => exact List.not_mem_nil
  | some digits =>
      rw [optionalPart, List.mem_cons, not_or]
      refine ⟨by decide, fun hmem => ?_⟩
      have hzero := (url.port_digits digits hsome).2 0 hmem
      rw [hdigit] at hzero
      cases hzero

theorem zero_notMem_renderedUrl : 0 ∉ (renderedUrl host.bytes port hne hplain).text := by
  obtain ⟨url, hurl⟩ : ∃ url, url = renderedUrl host.bytes port hne hplain := ⟨_, rfl⟩
  have hrest : optionalPart 47 url.rest = [] := by rw [hurl]; rfl
  have hhost : url.host = host.bytes := by rw [hurl]; rfl
  have hscheme : url.scheme = ascii "http" := by rw [hurl]; rfl
  have hfront : 0 ∉ ascii "http" ++ ascii "://" := by decide
  rw [← hurl, ProxyUrl.text, hrest, hhost, hscheme, List.append_nil, List.mem_append,
    List.mem_append, not_or, not_or]
  exact ⟨⟨hfront, host.noNul⟩, zero_notMem_port url⟩

end

/-- Rendering and parsing are inverse to each other. -/
theorem getProxy_proxyUrl (host : CString) (port : UInt16) (settings : ProxySettings)
    (hne : host.bytes ≠ []) (hlower : host.bytes.map toLower = host.bytes)
    (hplain : ∀ c ∈ host.bytes, c ≠ 58 ∧ c ≠ 47) :
    getProxy (settings.proxy host.bytes port).proxyUrl = some (host.bytes, port.toNat) := by
  have hnul := zero_notMem_renderedUrl host port hne hplain
  rw [proxyUrl_eq_text host port hne hplain]
  obtain ⟨url, hurl⟩ : ∃ url, url = renderedUrl host.bytes port hne hplain := ⟨_, rfl⟩
  have hhost : url.host.map toLower = host.bytes := by
    rw [hurl]
    exact hlower
  rw [← hurl] at hnul ⊢
  rw [url.getProxy_text hnul]
  by_cases hport : port = 80
  · -- The port is left out, and `http` stands for it.
    have hnone : url.port = none := by rw [hurl]; exact if_neg (not_not.mpr hport)
    have hrest : url.rest = none := by rw [hurl]; rfl
    have hhttps : url.https = false := by rw [hurl]; rfl
    rw [url.scanAuthority_of_plain hnone (by rw [hrest]; exact fun _ h => nomatch h), hhost, hhttps,
      hport]
    rfl
  · have hsome : url.port = some (decimal port.toNat) := by rw [hurl]; exact if_pos hport
    have hlt := port.toNat_lt
    rw [url.scanAuthority_of_port hsome, digitsValue_decimal, if_neg (by omega), hhost,
      Nat.mod_eq_of_lt (by omega)]

/-- The proxy of a host at the highest port. -/
theorem getProxy_proxyUrl_highest :
    getProxy (ProxySettings.initial.proxy (ascii "proxy") 65535).proxyUrl =
      some (ascii "proxy", 65535) :=
  getProxy_proxyUrl ⟨ascii "proxy", by decide⟩ 65535 .initial (by decide) (by decide)
    (List.forall_iff_forall_mem.mp (by decide))

end RemoteAttestation

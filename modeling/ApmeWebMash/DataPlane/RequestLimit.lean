-- SUMMARY: The request frames of the TCP avenue against their limit: a valid token fits, unless it grows too much when it is escaped.
import ApmeWebMash.DataPlane.HttpCases
import ApmeWebMash.DataPlane.Tcp
import ApmeWebMash.Web.DataPlaneRequest

/-! # The limit on request frames

A token is checked by its own length, and the frame that carries it by the
length of its JSON. Quotes and backslashes are allowed in a token and take two
bytes there. -/

namespace DataPlane.Tcp

/-- The tokens that every check of a bearer accepts. -/
structure ValidToken (token : Str) : Prop where
  ne_nil : token ≠ []
  len_le : Str.len token ≤ 16 * 1024
  chars : ∀ c ∈ token, Str.isWhitespace c = false ∧ Str.isControl c = false

/-- The bytes of a request frame beside its token. -/
def frameOverhead : Nat := 147

/-- What the limit on request frames is meant to be for a token: no limit of its
    own on the tokens that the other checks accept. -/
structure Admits (serde : SerdeJson) (uuid : UuidCrate) (token : Str) : Prop where
  fits : validateToken token = .ok () → ∀ requestId tenantId,
    ∃ payload, serde.toVec (frameRequest uuid ⟨requestId, tenantId, token⟩) = some payload ∧
      payload.length ≤ maxRequestBytes
  passes : validateToken token = .ok () → ∀ requestId tenantId,
    requestPayload serde uuid ⟨requestId, tenantId, token⟩ ≠
      .error (.invalidData "invalid request frame length")
  serves : Web.isToken token → Http.validateToken token = .ok () → ∀ requestId tenantId,
    ∃ payload, requestPayload serde uuid ⟨requestId, tenantId, token⟩ = .ok payload

/-! ## Valid tokens -/

theorem validToken_iff {token : Str} :
    ValidToken token ↔ ¬ (token = [] || Str.len token > 16 * 1024 || token.any Str.isWhitespace ||
      token.any Str.isControl) := by
  simp only [Bool.or_eq_true, decide_eq_true_eq, not_or, Nat.not_lt, gt_iff_lt, List.any_eq_true,
    not_exists, not_and, Bool.not_eq_true]
  constructor
  · intro h
    exact ⟨⟨⟨h.ne_nil, h.len_le⟩, fun c hc => (h.chars c hc).1⟩, fun c hc => (h.chars c hc).2⟩
  · rintro ⟨⟨⟨hne, hlen⟩, hspace⟩, hcontrol⟩
    exact ⟨hne, hlen, fun c hc => ⟨hspace c hc, hcontrol c hc⟩⟩

theorem validateToken_iff {token : Str} : validateToken token = .ok () ↔ ValidToken token := by
  rw [validToken_iff, validateToken]
  split
  · exact iff_of_false (by rintro ⟨⟩) (not_not.mpr ‹_›)
  · exact iff_of_true rfl ‹_›

theorem isToken_iff {token : Str} : Web.isToken token ↔ ValidToken token := by
  rw [validToken_iff, Web.isToken]
  simp

theorem ValidToken.le_toNat {token : Str} (h : ValidToken token) : ∀ c ∈ token, 32 ≤ c.toNat := by
  intro c hc
  have hcontrol := (h.chars c hc).2
  rw [Str.isControl, Bool.or_eq_false_iff, decide_eq_false_iff_not] at hcontrol
  omega

/-! ## The length of a frame -/

section
variable {serde : SerdeJson} {uuid : UuidCrate}

/-- The texts of a request frame. -/
def frameTexts (uuid : UuidCrate) (call : Call) : List (Str × Str) := [
  ("request_id", uuid.display call.requestId),
  ("tenant_id", uuid.display call.tenantId),
  ("bearer_token", call.bearerToken),
  ("operation", "list_cases")]

theorem frameRequest_eq (call : Call) :
    frameRequest uuid call = .object (Json.strings (frameTexts uuid call)) := rfl

theorem len_escape_display (huuid : uuid.DisplaysHyphenated) (id : Uuid) :
    Str.len (Json.escape (uuid.display id)) = 36 := by
  obtain ⟨hlength, hchars⟩ := huuid id
  have hvisible : ∀ c ∈ uuid.display id, 32 ≤ c.toNat ∧ c.toNat < 128 ∧ Json.isMark c = false := by
    intro c hc
    have hchar := hchars c hc
    rw [Bool.or_eq_true, beq_iff_eq] at hchar
    rcases hchar with halnum | rfl
    · have hbounds := Str.toNat_of_isAlphanum halnum
      refine ⟨by omega, by omega, ?_⟩
      rw [Json.isMark, Bool.or_eq_false_iff, decide_eq_false_iff_not, decide_eq_false_iff_not]
      constructor <;> rintro rfl <;> exact absurd halnum (by decide)
    · decide
  have hself : ∀ c ∈ uuid.display id, Json.escapeChar c = [c] := fun c hc =>
    Json.escapeChar_of_not_mark (hvisible c hc).2.2 (hvisible c hc).1
  rw [Json.escape_eq_self hself, Str.len_of_ascii fun c hc => (hvisible c hc).2.1, hlength]

/-- A frame is its token, escaped, and 147 bytes. -/
theorem length_frame (hserde : serde.RendersStrings) (huuid : uuid.DisplaysHyphenated) (call : Call)
    (htoken : ∀ c ∈ call.bearerToken, 32 ≤ c.toNat) :
    ∃ payload, serde.toVec (frameRequest uuid call) = some payload ∧
      payload.length =
        frameOverhead + Str.len call.bearerToken + call.bearerToken.countP Json.isMark := by
  have hnodup : ((frameTexts uuid call).map Prod.fst).Nodup := by
    change (["request_id", "tenant_id", "bearer_token", "operation"] : List Str).Nodup
    decide
  have hlen : Str.len (Json.render (.object (Json.strings (frameTexts uuid call)))) =
      ((frameTexts uuid call).map Json.memberLen).sum + 1 :=
    Json.len_render_strings (List.cons_ne_nil _ _)
  have hnames : ∀ name ∈ (["request_id", "tenant_id", "bearer_token", "operation", "list_cases"] :
      List Str), Str.len (Json.escape name) = name.length := by decide
  simp only [List.forall_mem_cons] at hnames
  obtain ⟨hrequest, htenant, hbearer, hoperation, hlist, -⟩ := hnames
  rw [frameRequest_eq, hserde _ hnodup]
  refine ⟨_, rfl, hlen.trans ?_⟩
  simp only [frameTexts, List.map_cons, List.map_nil, List.sum_cons, List.sum_nil, Json.memberLen,
    len_escape_display huuid, Json.len_escape htoken, hrequest, htenant, hbearer, hoperation, hlist,
    frameOverhead]
  simp
  omega

/-- A request is sent exactly if its frame fits. -/
theorem requestPayload_eq {call : Call} {payload : List UInt8} (hvalid : ValidToken call.bearerToken)
    (hpayload : serde.toVec (frameRequest uuid call) = some payload) :
    requestPayload serde uuid call =
      if payload = [] ∨ payload.length > maxRequestBytes then
        .error (.invalidData "invalid request frame length")
      else .ok payload := by
  rw [requestPayload, validateToken_iff.mpr hvalid]
  simp only [hpayload]
  rfl

/-! ## The limit -/

theorem admits_of_fits (hserde : serde.RendersStrings) (huuid : uuid.DisplaysHyphenated) {token : Str}
    (hfits : ValidToken token →
      frameOverhead + Str.len token + token.countP Json.isMark ≤ maxRequestBytes) :
    Admits serde uuid token := by
  have hframe : ValidToken token → ∀ requestId tenantId, ∃ payload,
      serde.toVec (frameRequest uuid ⟨requestId, tenantId, token⟩) = some payload ∧
        payload.length ≤ maxRequestBytes ∧
        requestPayload serde uuid ⟨requestId, tenantId, token⟩ = .ok payload := by
    intro hvalid requestId tenantId
    obtain ⟨payload, hpayload, hlength⟩ := length_frame hserde huuid ⟨requestId, tenantId, token⟩
      hvalid.le_toNat
    have hle := hlength.trans_le (hfits hvalid)
    -- the frame has more in it than the token
    have hne : payload ≠ [] := by
      rintro rfl
      rw [List.length_nil, frameOverhead] at hlength
      omega
    refine ⟨payload, hpayload, hle, ?_⟩
    rw [requestPayload_eq hvalid hpayload, if_neg (not_or.mpr ⟨hne, Nat.not_lt.mpr hle⟩)]
  refine ⟨fun hvalid requestId tenantId => ?_, fun hvalid requestId tenantId => ?_,
    fun hvalid _ requestId tenantId => ?_⟩
  · obtain ⟨payload, hpayload, hle, -⟩ := hframe (validateToken_iff.mp hvalid) requestId tenantId
    exact ⟨payload, hpayload, hle⟩
  · obtain ⟨payload, -, -, hok⟩ := hframe (validateToken_iff.mp hvalid) requestId tenantId
    rw [hok]
    rintro ⟨⟩
  · obtain ⟨payload, -, -, hok⟩ := hframe (isToken_iff.mp hvalid) requestId tenantId
    exact ⟨payload, hok⟩

theorem fits_of_admits (hserde : serde.RendersStrings) (huuid : uuid.DisplaysHyphenated) {token : Str}
    (h : Admits serde uuid token) (hvalid : ValidToken token) :
    frameOverhead + Str.len token + token.countP Json.isMark ≤ maxRequestBytes := by
  obtain ⟨payload, hpayload, hlength⟩ := length_frame hserde huuid ⟨0, 0, token⟩
    hvalid.le_toNat
  obtain ⟨payload', hpayload', hle⟩ := h.fits (validateToken_iff.mpr hvalid) 0 0
  obtain rfl := Option.some.inj (hpayload.symm.trans hpayload')
  exact hlength.symm.trans_le hle

/-- The limit admits every valid token whose bytes, with its quotes and
    backslashes counted twice, are no more than 20333. -/
theorem admits_iff (hserde : serde.RendersStrings) (huuid : uuid.DisplaysHyphenated) (token : Str) :
    Admits serde uuid token ↔
      (validateToken token = .ok () → Str.len token + token.countP Json.isMark ≤ 20333) := by
  have hlimit : frameOverhead + Str.len token + token.countP Json.isMark ≤ maxRequestBytes ↔
      Str.len token + token.countP Json.isMark ≤ 20333 := by
    rw [frameOverhead, maxRequestBytes]
    omega
  constructor
  · intro h hvalid
    exact hlimit.mp (fits_of_admits hserde huuid h (validateToken_iff.mp hvalid))
  · intro h
    exact admits_of_fits hserde huuid fun hvalid => hlimit.mpr (h (validateToken_iff.mpr hvalid))

end

theorem admits_iff_compact :
    Admits .compact .hyphenated "token" ↔
      (validateToken "token" = .ok () →
        Str.len "token" + ("token" : Str).countP Json.isMark ≤ 20333) :=
  admits_iff SerdeJson.compact_rendersStrings UuidCrate.hyphenated_displays "token"

theorem len_quotes (n : Nat) : Str.len (List.replicate n '"') = n := by
  rw [Str.len_of_ascii, List.length_replicate]
  intro c hc
  rw [List.eq_of_mem_replicate hc]
  decide

theorem validToken_quotes {n : Nat} (hpos : 0 < n) (hn : n ≤ 16 * 1024) :
    ValidToken (List.replicate n '"') where
  ne_nil := mt (List.replicate_eq_nil_iff _).mp (Nat.ne_of_gt hpos)
  len_le := (len_quotes n).trans_le hn
  chars := by
    intro c hc
    rw [List.eq_of_mem_replicate hc]
    decide

/-- 16 KiB of quotes are a valid token that does not fit. -/
theorem not_admits_quotes : ¬ Admits .compact .hyphenated (List.replicate (16 * 1024) '"') := by
  intro h
  have hfits := fits_of_admits SerdeJson.compact_rendersStrings UuidCrate.hyphenated_displays h
    (validToken_quotes (by decide) (Nat.le_refl _))
  rw [len_quotes, List.countP_replicate, if_pos (by decide)] at hfits
  exact absurd hfits (by decide)

end DataPlane.Tcp

import YarnCopilot.Security.Challenge

/-!
# The response at the server

The server reads the response with the same grammar of directives, computes the DIGEST-MD5 digest
from what it read and its own copy of the password, and compares it with the one it was sent. The
client computed its digest from the values before they were quoted, so the two agree only if quoting
and reading are inverse on them.
-/

namespace YarnCopilot.Security

open KeyedList

/-! ## Writing and reading directives -/

/-- The text of a directive. -/
def render (d : Bytes × Bytes) : Bytes := d.1 ++ 0x3D :: d.2

/-- A directive that is read back as it was written. -/
structure Readable (d : Bytes × Bytes) : Prop where
  key : 0x3D ∉ d.1
  keyComma : 0x2C ∉ d.1
  valueComma : 0x2C ∉ d.2
  value : d.2 ≠ [quote]

theorem Readable.cutAt {d : Bytes × Bytes} (h : Readable d) : cutAt 0x3D (render d) = some d :=
  cutAt_eq_some_iff.mpr ⟨h.key, rfl⟩

theorem filterMap_render {ds : List (Bytes × Bytes)} (h : ∀ d ∈ ds, Readable d) :
    (ds.map render).filterMap (cutAt 0x3D) = ds := by
  rw [List.filterMap_map]
  calc ds.filterMap (cutAt 0x3D ∘ render) = ds.filterMap some := by
        apply List.filterMap_congr
        intro d hd
        exact (h d hd).cutAt
    _ = ds := List.filterMap_some

theorem exists_collectParams {ds : List (Bytes × Bytes)} (h : ∀ d ∈ ds, Readable d)
    (params : Params) : ∃ stored, collectParams params (ds.map render) = .ok stored := by
  induction ds generalizing params with
  | nil => exact ⟨params, rfl⟩
  | cons d ds ih =>
    have hd := h d List.mem_cons_self
    rw [List.map_cons, collectParams_of_cut hd.cutAt hd.value]
    exact ih (fun d' hd' => h d' (List.mem_cons_of_mem _ hd')) _

/-- A list of directives is read back: every key has the last of its values, without quotes. -/
theorem getChallengeParams_render {ds : List (Bytes × Bytes)} (hne : ds ≠ [])
    (h : ∀ d ∈ ds, Readable d) :
    ∃ parsed, getChallengeParams ([0x2C].intercalate (ds.map render)) = .ok parsed ∧
      ∀ key, parsed key = (lastWrite Prod.fst ds key).map fun d => unquote d.2 := by
  have hcomma : ∀ piece ∈ ds.map render, (0x2C : UInt8) ∉ piece := by
    intro piece hpiece
    obtain ⟨d, hd, rfl⟩ := List.mem_map.mp hpiece
    have hread := h d hd
    rw [render, List.mem_append, List.mem_cons]
    exact not_or.mpr ⟨hread.keyComma, not_or.mpr ⟨by decide, hread.valueComma⟩⟩
  obtain ⟨parsed, hparsed⟩ := exists_collectParams h fun _ => none
  refine ⟨parsed, ?_, fun key => ?_⟩
  · rw [getChallengeParams, List.splitOn_intercalate _ hcomma (by simpa using hne), hparsed]
  · rw [collectParams_ok hparsed key, filterMap_render h, Option.or_none]

/-- The text of a value between quotes. -/
def quoteValue (value : Bytes) : Bytes := quote :: (value ++ [quote])

theorem unquote_quoteValue (value : Bytes) : unquote (quoteValue value) = value := by
  have hlast : (quote :: (value ++ [quote])).getLast? = some quote := by
    rw [← List.cons_append, List.getLast?_concat]
  rw [unquote, quoteValue, if_pos ⟨by simp, rfl, hlast⟩]
  simp

theorem unquote_of_not_mem {value : Bytes} (h : quote ∉ value) : unquote value = value := by
  rw [unquote, if_neg]
  rintro ⟨-, hhead, -⟩
  exact h (List.mem_of_mem_head? hhead)

theorem readable_quoteValue {key : String} {value : Bytes} (hkey : 0x3D ∉ ascii key)
    (hkeyComma : 0x2C ∉ ascii key) (h : 0x2C ∉ value) : Readable (ascii key, quoteValue value) where
  key := hkey
  keyComma := hkeyComma
  valueComma := by simpa [quoteValue, show (0x2C : UInt8) ≠ quote by decide] using h
  value := by simp [quoteValue]

theorem readable_plain {key : String} {value : Bytes} (hkey : 0x3D ∉ ascii key)
    (hkeyComma : 0x2C ∉ ascii key) (h : 0x2C ∉ value) (hquote : quote ∉ value) :
    Readable (ascii key, value) where
  key := hkey
  keyComma := hkeyComma
  valueComma := h
  value := by
    rintro rfl
    exact hquote List.mem_cons_self

/-! ## What is accepted of a challenge -/

theorem mem_of_mem_unquote {b : UInt8} {value : Bytes} (h : b ∈ unquote value) : b ∈ value := by
  unfold unquote at h
  split at h
  · exact List.mem_of_mem_tail (List.mem_of_mem_dropLast h)
  · exact h

/-- The values of a challenge have no comma. -/
theorem comma_not_mem_param {challenge key value : Bytes} {params : Params}
    (hparams : getChallengeParams challenge = .ok params) (h : params key = some value) :
    0x2C ∉ value := by
  rw [collectParams_ok hparams key, Option.or_none] at h
  obtain ⟨d, hd, rfl⟩ := Option.map_eq_some_iff.mp h
  have hmem : d ∈ (challenge.splitOn 0x2C).filterMap (cutAt 0x3D) := by
    rw [← List.mem_reverse]
    exact List.mem_of_find?_eq_some hd
  obtain ⟨piece, hpiece, hcut⟩ := List.mem_filterMap.mp hmem
  obtain ⟨-, hsplit⟩ := cutAt_eq_some_iff.mp (show cutAt 0x3D piece = some (d.1, d.2) from hcut)
  intro hcomma
  apply not_mem_of_mem_splitOn hpiece
  rw [hsplit]
  exact List.mem_append_right _ (List.mem_cons_of_mem _ (mem_of_mem_unquote hcomma))

/-- What a challenge that passes the checks holds. -/
theorem params_of_validate {params : Params} (h : validateChallengeParameters params = .ok ()) :
    (∃ realm, params (ascii "realm") = some realm) ∧
      (∃ nonce, params (ascii "nonce") = some nonce) ∧
      params (ascii "qop") = some (ascii "auth") := by
  have hnone : challengeErrors params = [] := by
    by_contra hne
    rw [validateChallengeParameters, if_pos (List.length_pos_of_ne_nil hne)] at h
    cases h
  -- a check that adds no message was passed
  have hif : ∀ {p : Prop} [Decidable p] {msg : Bytes}, (if p then [] else msg) = [] →
      msg ≠ [] → p := fun hmsg hne => not_imp_comm.mp (ite_eq_left_iff.mp hmsg) hne
  simp only [challengeErrors, List.append_eq_nil_iff] at hnone
  obtain ⟨⟨⟨⟨hrealm, hnonce⟩, hqop⟩, -⟩, -⟩ := hnone
  have hpresent : ∀ {value : Option Bytes}, (value.getD []).length ≠ 0 → ∃ v, value = some v := by
    intro value hvalue
    cases value with
    | none => simp at hvalue
    | some v => exact ⟨v, rfl⟩
  exact ⟨hpresent (hif hrealm (by decide)), hpresent (hif hnonce (by decide)),
    hif hqop (by decide)⟩

/-! ## The response -/

/-- The directives of the response, as they are written. -/
def responseDirectives (username realm nonce cnonce digestUri digest qop : Bytes) :
    List (Bytes × Bytes) :=
  [(ascii "charset", ascii "utf-8"), (ascii "username", quoteValue username),
    (ascii "realm", quoteValue realm), (ascii "nonce", quoteValue nonce),
    (ascii "nc", ascii "00000001"), (ascii "cnonce", quoteValue cnonce),
    (ascii "digest-uri", quoteValue digestUri), (ascii "maxbuf", ascii "65536"),
    (ascii "response", digest), (ascii "qop", qop)]

theorem quoted_eq_render (key : String) (value : Bytes) :
    quoted key value = render (ascii key, quoteValue value) ++ [0x2C] := by
  have heq : ascii "=" = [0x3D] := rfl
  have hcomma : ascii "," = [0x2C] := rfl
  simp [quoted, render, quoteValue, heq, hcomma]

/-- The response text is the list of its directives. -/
theorem generateChallengeReponse_eq {crypto : Crypto} {nonceBuffer : Bytes}
    (hnonce : crypto.nonce = some nonceBuffer) {params : Params} {realm nonce qop : Bytes}
    (hrealm : params (ascii "realm") = some realm) (hnon : params (ascii "nonce") = some nonce)
    (hqop : params (ascii "qop") = some qop) (username password protocol serverId : Bytes) :
    generateChallengeReponse crypto username password protocol serverId params =
      .ok ([0x2C].intercalate ((responseDirectives username realm nonce (base64Encode nonceBuffer)
        (protocol ++ ascii "/" ++ serverId)
        (responseDigest crypto.md5 username realm password nonce (base64Encode nonceBuffer) qop
          (protocol ++ ascii "/" ++ serverId)) qop).map render)) := by
  have hcharset : ascii "charset=utf-8," = render (ascii "charset", ascii "utf-8") ++ [0x2C] := rfl
  have hnc : ascii "nc=00000001," = render (ascii "nc", ascii "00000001") ++ [0x2C] := rfl
  have hmaxbuf : ascii "maxbuf=65536," = render (ascii "maxbuf", ascii "65536") ++ [0x2C] := rfl
  have hdigest (digest : Bytes) :
      ascii "response=" ++ digest = render (ascii "response", digest) := rfl
  have hauth (value : Bytes) : ascii "qop=" ++ value = render (ascii "qop", value) := rfl
  have hcomma : ascii "," = [0x2C] := rfl
  simp only [generateChallengeReponse, hnonce, hrealm, hnon, hqop, Option.getD_some]
  generalize responseDigest crypto.md5 _ _ _ _ _ _ _ = digest
  generalize protocol ++ ascii "/" ++ serverId = digestUri
  simp only [hcharset, quoted_eq_render, hnc, hmaxbuf, hcomma, List.append_assoc, hauth]
  rw [← List.append_assoc (ascii "response="), hdigest]
  simp [responseDirectives, List.intercalate]

/-- Values joined by colons. -/
def colonJoined (values : List Bytes) : Bytes := [0x3A].intercalate values

/-- The digest the server computes from the directives it has read and the password it keeps: the
`response-value` of DIGEST-MD5 for `md5-sess` and `qop=auth`. -/
def serverDigest (md5 : Bytes → Bytes) (password : Bytes) (read : Params) : Option Bytes := do
  let username ← read (ascii "username")
  let realm ← read (ascii "realm")
  let nonce ← read (ascii "nonce")
  let nc ← read (ascii "nc")
  let cnonce ← read (ascii "cnonce")
  let qop ← read (ascii "qop")
  let digestUri ← read (ascii "digest-uri")
  let ha1 := md5 (colonJoined [md5 (colonJoined [username, realm, password]), nonce, cnonce])
  let ha2 := md5 (colonJoined [ascii "AUTHENTICATE", digestUri])
  return hexEncode (md5 (colonJoined [hexEncode ha1, nonce, nc, cnonce, qop, hexEncode ha2]))

/-- The response the server has read answers the challenge `params`, and its digest is the one the
server computes. -/
structure Verifies (md5 : Bytes → Bytes) (protocol serverId : Bytes) (token : TokenProto)
    (params read : Params) : Prop where
  username : read (ascii "username") = some (base64Encode token.identifier)
  realm : read (ascii "realm") = params (ascii "realm")
  nonce : read (ascii "nonce") = params (ascii "nonce")
  nc : read (ascii "nc") = some (ascii "00000001")
  qop : read (ascii "qop") = some (ascii "auth")
  digestUri : read (ascii "digest-uri") = some (protocol ++ ascii "/" ++ serverId)
  response : ∃ digest, serverDigest md5 (base64Encode token.password) read = some digest ∧
    read (ascii "response") = some digest

section Directives

variable {username realm nonce cnonce digestUri digest : Bytes}

theorem readable_responseDirectives (husername : 0x2C ∉ username) (hrealm : 0x2C ∉ realm)
    (hnonce : 0x2C ∉ nonce) (hcnonce : 0x2C ∉ cnonce) (huri : 0x2C ∉ digestUri)
    (hdigest : 0x2C ∉ digest) (hquote : quote ∉ digest) :
    ∀ d ∈ responseDirectives username realm nonce cnonce digestUri digest (ascii "auth"),
      Readable d := by
  simp only [responseDirectives, List.forall_mem_cons]
  refine ⟨readable_plain ?_ ?_ ?_ ?_, readable_quoteValue ?_ ?_ husername,
    readable_quoteValue ?_ ?_ hrealm, readable_quoteValue ?_ ?_ hnonce, readable_plain ?_ ?_ ?_ ?_,
    readable_quoteValue ?_ ?_ hcnonce, readable_quoteValue ?_ ?_ huri, readable_plain ?_ ?_ ?_ ?_,
    readable_plain ?_ ?_ hdigest hquote, readable_plain ?_ ?_ ?_ ?_, List.forall_mem_nil _⟩
  all_goals decide

/-- What is read of the response. -/
theorem read_responseDirectives {read : Params} (hquote : quote ∉ digest)
    (hread : ∀ key, read key = (lastWrite Prod.fst
      (responseDirectives username realm nonce cnonce digestUri digest (ascii "auth")) key).map
        fun d => unquote d.2) :
    read (ascii "username") = some username ∧ read (ascii "realm") = some realm ∧
      read (ascii "nonce") = some nonce ∧ read (ascii "nc") = some (ascii "00000001") ∧
      read (ascii "cnonce") = some cnonce ∧ read (ascii "digest-uri") = some digestUri ∧
      read (ascii "response") = some digest ∧ read (ascii "qop") = some (ascii "auth") := by
  refine ⟨?_, ?_, ?_, ?_, ?_, ?_, ?_, ?_⟩
  · exact (hread _).trans (congrArg some (unquote_quoteValue username))
  · exact (hread _).trans (congrArg some (unquote_quoteValue realm))
  · exact (hread _).trans (congrArg some (unquote_quoteValue nonce))
  · exact hread _
  · exact (hread _).trans (congrArg some (unquote_quoteValue cnonce))
  · exact (hread _).trans (congrArg some (unquote_quoteValue digestUri))
  · exact (hread _).trans (congrArg some (unquote_of_not_mem hquote))
  · exact hread _

/-- The client's digest is the server's, once the server has read what the client has written. -/
theorem serverDigest_eq {md5 : Bytes → Bytes} {password qop : Bytes} {read : Params}
    (husername : read (ascii "username") = some username)
    (hrealm : read (ascii "realm") = some realm) (hnonce : read (ascii "nonce") = some nonce)
    (hnc : read (ascii "nc") = some (ascii "00000001"))
    (hcnonce : read (ascii "cnonce") = some cnonce)
    (huri : read (ascii "digest-uri") = some digestUri) (hqop : read (ascii "qop") = some qop) :
    serverDigest md5 password read =
      some (responseDigest md5 username realm password nonce cnonce qop digestUri) := by
  have hcolon : ascii ":" = [0x3A] := rfl
  simp [serverDigest, responseDigest, colonJoined, List.intercalate, hcolon, husername, hrealm,
    hnonce, hnc, hcnonce, huri, hqop]

end Directives

theorem comma_not_mem_base64Encode (bs : Bytes) : 0x2C ∉ base64Encode bs :=
  fun h => absurd (mem_base64Encode h) (by decide +kernel)

theorem not_mem_responseDigest {b : UInt8} (hb : b ∉ ascii "0123456789abcdef")
    {md5 : Bytes → Bytes} {username realm password nonce cnonce qop digestUri : Bytes} :
    b ∉ responseDigest md5 username realm password nonce cnonce qop digestUri :=
  fun h => hb (mem_hexEncode h)

/-- A challenge that passes the checks is answered. -/
theorem getDigestMD5ChallengeResponse_of_valid {challenge : Bytes} {params : Params}
    (hparams : getChallengeParams challenge = .ok params)
    (hvalid : validateChallengeParameters params = .ok ()) (crypto : Crypto)
    (protocol serverId : Bytes) (token : TokenProto) :
    getDigestMD5ChallengeResponse crypto protocol serverId challenge (some token) =
      generateChallengeReponse crypto (base64Encode token.identifier)
        (base64Encode token.password) protocol serverId params := by
  have hne : ¬ challenge.length ≤ 0 := by
    intro hlen
    -- the empty challenge is one piece without a `=`
    rw [List.length_eq_zero_iff.mp (Nat.le_zero.mp hlen)] at hparams
    cases hparams
  rw [getDigestMD5ChallengeResponse, if_neg hne, hparams, except_ok_bind, hvalid, except_ok_bind]
  rfl

/-- A challenge that is answered passed the checks. -/
theorem accepted_of_response {crypto : Crypto} {protocol serverId challenge response : Bytes}
    {token : TokenProto}
    (h : getDigestMD5ChallengeResponse crypto protocol serverId challenge (some token) =
      .ok response) :
    ∃ params nonceBuffer, getChallengeParams challenge = .ok params ∧
      validateChallengeParameters params = .ok () ∧ crypto.nonce = some nonceBuffer := by
  rw [getDigestMD5ChallengeResponse] at h
  split at h
  · cases h
  · cases hparams : getChallengeParams challenge with
    | error e =>
      rw [hparams] at h
      cases h
    | ok params =>
      rw [hparams, except_ok_bind] at h
      cases hvalid : validateChallengeParameters params with
      | error e =>
        rw [hvalid] at h
        cases h
      | ok u =>
        rw [hvalid, except_ok_bind] at h
        cases hnonce : crypto.nonce with
        | none =>
          rw [generateChallengeReponse, hnonce] at h
          cases h
        | some nonceBuffer => exact ⟨params, nonceBuffer, rfl, hvalid, rfl⟩

/-- What answers a challenge is read back, and passes the server's check, unless the URI in it has a
comma. -/
theorem verifies_of_response {crypto : Crypto} {protocol serverId challenge response : Bytes}
    {token : TokenProto} {params : Params} (hparams : getChallengeParams challenge = .ok params)
    (h : getDigestMD5ChallengeResponse crypto protocol serverId challenge (some token) =
      .ok response) (hprotocol : 0x2C ∉ protocol) (hserverId : 0x2C ∉ serverId) :
    ∃ read, getChallengeParams response = .ok read ∧
      Verifies crypto.md5 protocol serverId token params read := by
  obtain ⟨params', nonceBuffer, hparams', hvalid, hrand⟩ := accepted_of_response h
  obtain rfl : params = params' := Except.ok.inj (hparams.symm.trans hparams')
  obtain ⟨⟨realm, hrealm⟩, ⟨nonce, hnonce⟩, hqop⟩ := params_of_validate hvalid
  rw [getDigestMD5ChallengeResponse_of_valid hparams hvalid,
    generateChallengeReponse_eq hrand hrealm hnonce hqop] at h
  obtain rfl := Except.ok.inj h
  have huri : (0x2C : UInt8) ∉ protocol ++ ascii "/" ++ serverId := by
    rw [List.mem_append, List.mem_append]
    exact not_or.mpr ⟨not_or.mpr ⟨hprotocol, by decide⟩, hserverId⟩
  have hquote : quote ∉ responseDigest crypto.md5 (base64Encode token.identifier) realm
      (base64Encode token.password) nonce (base64Encode nonceBuffer) (ascii "auth")
      (protocol ++ ascii "/" ++ serverId) := not_mem_responseDigest (by decide)
  obtain ⟨read, hparsed, hread⟩ := getChallengeParams_render (by simp [responseDirectives])
    (readable_responseDirectives (comma_not_mem_base64Encode token.identifier)
      (comma_not_mem_param hparams hrealm) (comma_not_mem_param hparams hnonce)
      (comma_not_mem_base64Encode nonceBuffer) huri (not_mem_responseDigest (by decide)) hquote)
  obtain ⟨husername, hrealm', hnonce', hnc, hcnonce, huri', hdigest, hqop'⟩ :=
    read_responseDirectives hquote hread
  exact ⟨read, hparsed, husername, hrealm'.trans hrealm.symm, hnonce'.trans hnonce.symm, hnc, hqop',
    huri', _, serverDigest_eq husername hrealm' hnonce' hnc hcnonce huri' hqop', hdigest⟩

/-- A response with a comma in its URI does not pass: what is read of a response has none. -/
theorem Verifies.comma_not_mem {md5 : Bytes → Bytes} {protocol serverId response : Bytes}
    {token : TokenProto} {params read : Params} (hread : getChallengeParams response = .ok read)
    (h : Verifies md5 protocol serverId token params read) :
    0x2C ∉ protocol ∧ 0x2C ∉ serverId := by
  have huri := comma_not_mem_param hread h.digestUri
  simp only [List.mem_append, not_or] at huri
  exact ⟨huri.1.1, huri.2⟩

/-- Every accepted challenge is answered, and the answer passes the server's check. -/
theorem getDigestMD5ChallengeResponse_verifies (crypto : Crypto) (nonceBuffer : Bytes)
    (hrand : crypto.nonce = some nonceBuffer) (protocol serverId : Bytes)
    (hprotocol : 0x2C ∉ protocol) (hserverId : 0x2C ∉ serverId) (token : TokenProto)
    (challenge : Bytes) (params : Params) (hparams : getChallengeParams challenge = .ok params)
    (hvalid : validateChallengeParameters params = .ok ()) :
    ∃ response read,
      getDigestMD5ChallengeResponse crypto protocol serverId challenge (some token) =
        .ok response ∧
      getChallengeParams response = .ok read ∧
      Verifies crypto.md5 protocol serverId token params read := by
  obtain ⟨⟨realm, hrealm⟩, ⟨nonce, hnonce⟩, hqop⟩ := params_of_validate hvalid
  have hresponse := (getDigestMD5ChallengeResponse_of_valid hparams hvalid crypto protocol serverId
    token).trans (generateChallengeReponse_eq hrand hrealm hnonce hqop _ _ protocol serverId)
  obtain ⟨read, hread, hverifies⟩ := verifies_of_response hparams hresponse hprotocol hserverId
  exact ⟨_, read, hresponse, hread, hverifies⟩

/-- The challenge of a resource manager. -/
theorem getDigestMD5ChallengeResponse_verifies_default :
    ∃ params response read,
      getDigestMD5ChallengeResponse ⟨id, some (List.replicate 30 7)⟩ [] (ascii "default")
        (ascii "realm=default,nonce=7,qop=auth,charset=utf-8,algorithm=md5-sess")
        (some ⟨[1, 2], [3]⟩) = .ok response ∧
      getChallengeParams response = .ok read ∧
      Verifies id [] (ascii "default") ⟨[1, 2], [3]⟩ params read := by
  have hparams : getChallengeParams
      (ascii "realm=default,nonce=7,qop=auth,charset=utf-8,algorithm=md5-sess") = .ok _ := rfl
  exact ⟨_, getDigestMD5ChallengeResponse_verifies ⟨id, some (List.replicate 30 7)⟩ _ rfl []
    (ascii "default") (by decide) (by decide) ⟨[1, 2], [3]⟩ _ _ hparams rfl⟩

end YarnCopilot.Security

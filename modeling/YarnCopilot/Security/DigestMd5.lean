import YarnCopilot.Common.Text

/-!
# The DIGEST-MD5 response

Reference: `pkg/yarn/apis/security/digestmd5.go`.

The server's challenge is a comma-separated list of `key=value` directives; the client checks that
it offers the one supported mechanism (`md5-sess`, `auth`) and answers with its own list. MD5 and
the random nonce are parameters: `md5` is the hash of `crypto/md5`, `nonce` what `rand.Read`
returned.
-/

namespace YarnCopilot.Security

/-- What the response takes from the Go runtime: the MD5 hash, and the 30 random bytes of the
client nonce (`none` when `rand.Read` fails). -/
structure Crypto where
  md5 : Bytes → Bytes
  nonce : Option Bytes

/-- The two fields of a delegation token that the mechanism uses. -/
structure TokenProto where
  identifier : Bytes
  password : Bytes
deriving DecidableEq, Repr

/-- The directives of a challenge. -/
abbrev Params := Bytes → Option Bytes

/-- The double quote. -/
def quote : UInt8 := 0x22

/-- Strip the quotes of a quoted directive value. Prefix and suffix are tested separately, and the
value is then sliced twice: a lone quote passes both tests. -/
def stripQuotes (value : Bytes) : Except (Fault GoError) Bytes :=
  if [quote] <+: value ∧ [quote] <:+ value then do
    let value ← sliceBytes value 1 value.length
    sliceBytes value 0 ((value.length : ℤ) - 1)
  else .ok value

/-- The loop of `getChallengeParams` over the comma-separated directives. -/
def collectParams (params : Params) : List Bytes → Except (Fault GoError) Params
  | [] => .ok params
  | split :: splits =>
    match cutAt 0x3D split with
    | none => .error (.err (.text (ascii "found invalid param: " ++ split)))
    | some (key, value) => do
      let value ← stripQuotes value
      collectParams (Function.update params key (some value)) splits

/-- `getChallengeParams`: split on commas, then each directive on its first `=`. -/
def getChallengeParams (challenge : Bytes) : Except (Fault GoError) Params :=
  collectParams (fun _ => none) (challenge.splitOn 0x2C)

/-- `validateChallengeParameters`: the messages of all failed checks, in order. -/
def challengeErrors (params : Params) : Bytes :=
  let present (key : String) := ((params (ascii key)).getD []).length ≠ 0
  let equals (key value : String) := params (ascii key) = some (ascii value)
  (if present "realm" then [] else ascii "missing or invalid realm. ") ++
  (if present "nonce" then [] else ascii "missing or invalid nonce. ") ++
  (if equals "qop" "auth" then [] else ascii "missing, invalid or unsupported qop. ") ++
  (if equals "charset" "utf-8" then [] else ascii "missing, invalid or unsupported charset. ") ++
  (if equals "algorithm" "md5-sess" then []
    else ascii "missing, invalid or unsupported algorithm. ")

/-- `validateChallengeParameters`. -/
def validateChallengeParameters (params : Params) : Except (Fault GoError) Unit :=
  if (challengeErrors params).length > 0 then .error (.err (.text (challengeErrors params)))
  else .ok ()

/-- The `md5-sess` digest with `qop=auth`: `HA1 = MD5(MD5(username:realm:password):nonce:cnonce)`,
`HA2 = MD5(method:digest-uri)` and `MD5(HA1:nonce:nc:cnonce:qop:HA2)`. -/
def responseDigest (md5 : Bytes → Bytes)
    (username realm password nonce cnonce qop digestUri : Bytes) : Bytes :=
  let colon := ascii ":"
  let ha1 := md5 (md5 (username ++ colon ++ realm ++ colon ++ password) ++ colon ++ nonce ++
    colon ++ cnonce)
  let ha2 := md5 (ascii "AUTHENTICATE" ++ colon ++ digestUri)
  hexEncode (md5 (hexEncode ha1 ++ colon ++ nonce ++ colon ++ ascii "00000001" ++ colon ++
    cnonce ++ colon ++ qop ++ colon ++ hexEncode ha2))

/-- A quoted directive `key="value",`. -/
def quoted (key : String) (value : Bytes) : Bytes :=
  ascii key ++ ascii "=" ++ [quote] ++ value ++ [quote] ++ ascii ","

/-- `generateChallengeReponse`. A directive the challenge lacks reads as the empty string. -/
def generateChallengeReponse (crypto : Crypto) (username password protocol serverId : Bytes)
    (params : Params) : Except (Fault GoError) Bytes :=
  let realm := (params (ascii "realm")).getD []
  let nonce := (params (ascii "nonce")).getD []
  let qop := (params (ascii "qop")).getD []
  let digestUri := protocol ++ ascii "/" ++ serverId
  match crypto.nonce with
  | none => .error (.err .io)
  | some nonceBuffer =>
    let cnonce := base64Encode nonceBuffer
    .ok (ascii "charset=utf-8," ++ quoted "username" username ++ quoted "realm" realm ++
      quoted "nonce" nonce ++ ascii "nc=00000001," ++ quoted "cnonce" cnonce ++
      quoted "digest-uri" digestUri ++ ascii "maxbuf=65536," ++ ascii "response=" ++
      responseDigest crypto.md5 username realm password nonce cnonce qop digestUri ++
      ascii "," ++ ascii "qop=" ++ qop)

/-- `GetDigestMD5ChallengeResponse`; the getters of a nil token return empty fields. -/
def getDigestMD5ChallengeResponse (crypto : Crypto) (protocol serverId challenge : Bytes)
    (userToken : Option TokenProto) : Except (Fault GoError) Bytes :=
  if challenge.length ≤ 0 then .error (.err (.text (ascii "challenge cannot be empty!")))
  else do
    let params ← getChallengeParams challenge
    validateChallengeParameters params
    let username := base64Encode ((userToken.map TokenProto.identifier).getD [])
    let password := base64Encode ((userToken.map TokenProto.password).getD [])
    generateChallengeReponse crypto username password protocol serverId params

end YarnCopilot.Security

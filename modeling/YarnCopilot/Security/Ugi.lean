import YarnCopilot.Common.MapLoop
import YarnCopilot.Common.Run
import YarnCopilot.Ipc.Client

/-!
# The token store of a user

Reference: `pkg/yarn/apis/security/ugi.go`, and `findUsableTokenForService` of
`pkg/yarn/client/ipc/client.go`.

A `UserGroupInformation` keeps delegation tokens by alias and takes no token once it has `maxTokens`
of them. A token that expires is renewed by adding its successor under the same alias.
`tokensSafe_iff` says for which sequences of additions every renewal reaches the lookup.
-/

namespace YarnCopilot.Security

open Ipc (UserInformationProto)

/-- A whole `TokenProto`, as it is stored. -/
structure StoredToken extends TokenProto where
  kind : Option Bytes
  service : Option Bytes
deriving DecidableEq, Repr

/-- `GetService`. -/
def StoredToken.getService (token : StoredToken) : Bytes := token.service.getD []

/-- `UserGroupInformation`. -/
structure UserGroupInformation where
  userInfo : Option UserInformationProto
  userTokens : AList fun _ : Bytes => StoredToken

/-- `maxTokens`. -/
def maxTokens : ℕ := 16

/-- `CreateCurrentUserInfoProto`; the name of the user is absent when `user.Current` fails. -/
def createCurrentUserInfoProto (username : Option Bytes) : Option UserInformationProto :=
  username.map fun username => ⟨none, some username⟩

/-- `Allocate`. -/
def allocate (username : Option Bytes) (userInfo : Option UserInformationProto)
    (userTokens : Option (AList fun _ : Bytes => StoredToken)) : UserGroupInformation :=
  ⟨userInfo.or (createCurrentUserInfoProto username), userTokens.getD ∅⟩

namespace UserGroupInformation

variable (ugi : UserGroupInformation)

/-- The number of aliases in the store. -/
def size : ℕ := ugi.userTokens.keys.length

/-- `AddUserTokenWithAlias`. Whether the store has room is asked whatever the alias is. -/
def addUserTokenWithAlias (name : Bytes) : Option StoredToken → UserGroupInformation
  | none => ugi
  | some token =>
    if ugi.size < maxTokens then { ugi with userTokens := ugi.userTokens.insert name token }
    else ugi

/-- `AddUserToken`. -/
def addUserToken : Option StoredToken → UserGroupInformation
  | none => ugi
  | some token => ugi.addUserTokenWithAlias token.getService (some token)

/-- `findUsableTokenForService` for the current user `ugi`. -/
def findUsableTokenForService (service : Bytes) : Option StoredToken :=
  if ugi.size = 0 then none else ugi.userTokens.lookup service

end UserGroupInformation

/-- A call that adds a token. -/
inductive AddCall
  | addUserTokenWithAlias (name : Bytes) (token : Option StoredToken)
  | addUserToken (token : Option StoredToken)

namespace AddCall

/-- What a call adds, and under which alias; nothing for a nil token. -/
def added : AddCall → Option (Bytes × StoredToken)
  | addUserTokenWithAlias name token => token.map fun token => (name, token)
  | addUserToken token => token.map fun token => (token.getService, token)

/-- The store after a call. -/
def step (ugi : UserGroupInformation) : AddCall → UserGroupInformation
  | addUserTokenWithAlias name token => ugi.addUserTokenWithAlias name token
  | addUserToken token => ugi.addUserToken token

end AddCall

/-- What is asked of a sequence of calls: the bound holds, no alias is lost, and a token that is
added under a present alias is the one that is found from then on. -/
structure TokensSafe (start : UserGroupInformation) (calls : List AddCall) : Prop where
  bounded : ∀ pre post, calls = pre ++ post → (run AddCall.step start pre).size ≤ maxTokens
  kept : ∀ pre mid post, calls = pre ++ mid ++ post →
    ∀ name ∈ (run AddCall.step start pre).userTokens,
      name ∈ (run AddCall.step start (pre ++ mid)).userTokens
  renewed : Meets AddCall.step (fun ugi call => ∀ name token, call.added = some (name, token) →
    name ∈ ugi.userTokens → (call.step ugi).findUsableTokenForService name = some token) start calls

/-! ## The store -/

section Store

variable {ugi : UserGroupInformation} {name service : Bytes} {token stored : StoredToken}

theorem size_pos_of_mem (h : name ∈ ugi.userTokens) : 0 < ugi.size :=
  List.length_pos_of_mem (AList.mem_keys.mp h)

/-- The test for an empty store changes nothing. -/
theorem findUsableTokenForService_eq_lookup :
    ugi.findUsableTokenForService service = ugi.userTokens.lookup service := by
  rw [UserGroupInformation.findUsableTokenForService]
  split
  · rename_i hempty
    symm
    rw [AList.lookup_eq_none]
    intro h
    exact absurd (size_pos_of_mem h) (by omega)
  · rfl

/-- The tokens of the current user, as a connection sees them. -/
def UserGroupInformation.tokens (ugi : UserGroupInformation) (service : Bytes) :
    Option TokenProto :=
  (ugi.userTokens.lookup service).map StoredToken.toTokenProto

/-- The lookup of a connection is the one in the store. -/
theorem findUsableTokenForService_tokens {Req Resp : Type} (ep : Ipc.Endpoint Req Resp) :
    Ipc.findUsableTokenForService { ep with userTokens := ugi.tokens } service =
      (ugi.findUsableTokenForService service).map StoredToken.toTokenProto := by
  rw [findUsableTokenForService_eq_lookup]
  rfl

/-- What a call does: it adds its token if it has one and the store has room. -/
theorem step_eq (ugi : UserGroupInformation) (call : AddCall) :
    call.step ugi =
      match call.added with
      | none => ugi
      | some (name, token) =>
        if ugi.size < maxTokens then { ugi with userTokens := ugi.userTokens.insert name token }
        else ugi := by
  cases call with
  | addUserTokenWithAlias name token => cases token <;> rfl
  | addUserToken token => cases token <;> rfl

/-- A call either leaves the store as it is or adds a token while there is room. -/
theorem step_cases (ugi : UserGroupInformation) (call : AddCall) :
    call.step ugi = ugi ∨ ∃ name token, ugi.size < maxTokens ∧
      call.step ugi = { ugi with userTokens := ugi.userTokens.insert name token } := by
  rw [step_eq]
  cases call.added with
  | none => exact .inl rfl
  | some added =>
    by_cases hroom : ugi.size < maxTokens
    · exact .inr ⟨added.1, added.2, hroom, if_pos hroom⟩
    · exact .inl (if_neg hroom)

/-- A call keeps the bound. -/
theorem size_step_le (call : AddCall) (h : ugi.size ≤ maxTokens) :
    (call.step ugi).size ≤ maxTokens := by
  obtain heq | ⟨name, token, hroom, heq⟩ := step_cases ugi call
  · rw [heq]
    exact h
  · rw [heq]
    exact (length_keys_insert_le _ _ _).trans hroom

/-- A call keeps every alias. -/
theorem mem_step (call : AddCall) (h : name ∈ ugi.userTokens) :
    name ∈ (call.step ugi).userTokens := by
  obtain heq | ⟨other, token, _, heq⟩ := step_cases ugi call
  · rw [heq]
    exact h
  · rw [heq]
    exact (AList.mem_insert _).mpr (.inr h)

/-- Room for the renewal of `stored` by `token`, or nothing to renew. -/
def Renewable (ugi : UserGroupInformation) (call : AddCall) : Prop :=
  ∀ name token stored, call.added = some (name, token) →
    ugi.userTokens.lookup name = some stored → ugi.size < maxTokens ∨ stored = token

/-- A token that is added under a present alias is found exactly when the store has room for it, or
had it already. -/
theorem renewed_iff (call : AddCall) :
    (∀ name token, call.added = some (name, token) → name ∈ ugi.userTokens →
      (call.step ugi).findUsableTokenForService name = some token) ↔ Renewable ugi call := by
  rw [Renewable]
  refine forall_congr' fun name => forall_congr' fun token => ?_
  constructor
  · intro h stored hadded hstored
    have hmem : name ∈ ugi.userTokens := AList.lookup_isSome.mp (by rw [hstored]; rfl)
    have hfound := h hadded hmem
    by_cases hroom : ugi.size < maxTokens
    · exact .inl hroom
    · right
      -- the store is full and is left as it was
      rw [step_eq, hadded, findUsableTokenForService_eq_lookup] at hfound
      simp only [if_neg hroom] at hfound
      exact Option.some.inj (hstored.symm.trans hfound)
  · intro h hadded hmem
    obtain ⟨stored, hstored⟩ := Option.isSome_iff_exists.mp (AList.lookup_isSome.mpr hmem)
    rw [step_eq, hadded, findUsableTokenForService_eq_lookup]
    dsimp only
    split
    · exact AList.lookup_insert _
    · rename_i hfull
      obtain hroom | rfl := h stored hadded hstored
      · exact absurd hroom hfull
      · exact hstored

end Store

/-! ## Sequences of calls -/

/-- No alias is lost along a run. -/
theorem run_kept {ugi : UserGroupInformation} {name : Bytes} (calls : List AddCall)
    (h : name ∈ ugi.userTokens) : name ∈ (run AddCall.step ugi calls).userTokens := by
  have hstep : ∀ (ugi : UserGroupInformation) (call : AddCall), name ∈ ugi.userTokens →
      name ∈ (call.step ugi).userTokens := fun _ call hmem => mem_step call hmem
  exact run_invariant hstep calls h

theorem run_bounded {ugi : UserGroupInformation} (calls : List AddCall)
    (h : ugi.size ≤ maxTokens) : (run AddCall.step ugi calls).size ≤ maxTokens := by
  have hstep : ∀ (ugi : UserGroupInformation) (call : AddCall), ugi.size ≤ maxTokens →
      (call.step ugi).size ≤ maxTokens := fun _ call hsize => size_step_le call hsize
  exact run_invariant hstep calls h

/-- The bound holds and no alias is lost, whatever is added; every renewal is found exactly when
each of them came while the store had room, or brought the token that was already there. -/
theorem tokensSafe_iff (username : Option Bytes) (calls : List AddCall) :
    TokensSafe (allocate username none none) calls ↔
      Meets AddCall.step Renewable (allocate username none none) calls := by
  have hok : (fun ugi (call : AddCall) => ∀ name token, call.added = some (name, token) →
      name ∈ ugi.userTokens → (call.step ugi).findUsableTokenForService name = some token) =
        Renewable := by
    funext ugi call
    exact propext (renewed_iff call)
  constructor
  · intro h
    have hrenewed := h.renewed
    rw [hok] at hrenewed
    exact hrenewed
  · intro h
    refine ⟨fun pre post _ => run_bounded pre (Nat.zero_le _), fun pre mid post _ name hname => ?_, ?_⟩
    · rw [run_append]
      exact run_kept mid hname
    · rw [hok]
      exact h

/-- Where renewals are safe, the next connection to the service authenticates with the new token. -/
theorem TokensSafe.renewed_connection {Req Resp : Type} {start : UserGroupInformation}
    {pre post : List AddCall} {call : AddCall} (h : TokensSafe start (pre ++ call :: post))
    {name : Bytes} {token : StoredToken} (hadded : call.added = some (name, token))
    (hname : name ∈ (run AddCall.step start pre).userTokens) (ep : Ipc.Endpoint Req Resp) :
    Ipc.findUsableTokenForService
        { ep with userTokens := (run AddCall.step start (pre ++ [call])).tokens } name =
      some token.toTokenProto := by
  rw [findUsableTokenForService_tokens, run_append, run_cons, run_nil,
    h.renewed pre call post rfl name token hadded hname]
  rfl

/-- A token for a service, by its password. -/
def tokenOf (password : Bytes) : StoredToken := ⟨⟨[], password⟩, none, none⟩

/-- Sixteen tokens under as many aliases. -/
def sixteenTokens : List AddCall :=
  (List.range 16).map fun i => .addUserTokenWithAlias [UInt8.ofNat i] (some (tokenOf [0]))

/-- With sixteen aliases the renewal of the first one is dropped, and the old token is still
found. -/
theorem renewal_dropped :
    (run AddCall.step (allocate none none none) (sixteenTokens ++
      [.addUserTokenWithAlias [0] (some (tokenOf [1]))])).findUsableTokenForService [0] =
        some (tokenOf [0]) ∧
    ¬ TokensSafe (allocate none none none) (sixteenTokens ++
      [.addUserTokenWithAlias [0] (some (tokenOf [1]))]) := by
  have hfound : (run AddCall.step (allocate none none none) (sixteenTokens ++
      [.addUserTokenWithAlias [0] (some (tokenOf [1]))])).findUsableTokenForService [0] =
        some (tokenOf [0]) := by
    decide +kernel
  refine ⟨hfound, fun h => ?_⟩
  have hpresent : [0] ∈ (run AddCall.step (allocate none none none) sixteenTokens).userTokens := by
    decide +kernel
  have hrenewed := h.renewed sixteenTokens _ [] rfl [0] (tokenOf [1]) rfl hpresent
  rw [run_append, run_cons, run_nil] at hfound
  rw [hfound] at hrenewed
  cases hrenewed

end YarnCopilot.Security

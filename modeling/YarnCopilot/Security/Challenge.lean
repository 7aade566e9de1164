import YarnCopilot.Common.KeyedList
import YarnCopilot.Security.DigestMd5

/-!
# What is read of a challenge

The value of a directive is meant to be the text behind its first `=`, without a pair of quotes
around it. A value that is one quote and nothing else passes the tests for an opening and a closing
quote, and the second slice expression is then out of range: that is the only input on which the
parser panics.
-/

namespace YarnCopilot.Security

open KeyedList

/-- A value without the quotes around it. -/
def unquote (value : Bytes) : Bytes :=
  if 2 ≤ value.length ∧ value.head? = some quote ∧ value.getLast? = some quote then
    value.tail.dropLast
  else value

/-- The directives of a challenge: the keys and the texts behind the first `=`. -/
def directives (challenge : Bytes) : List (Bytes × Bytes) :=
  (challenge.splitOn 0x2C).filterMap (cutAt 0x3D)

/-! ## One value -/

/-- Two slice expressions take off the quotes of a value of at least two characters. -/
theorem stripQuotes_quoted {rest : Bytes} (hne : rest ≠ [])
    (hlast : [quote] <:+ quote :: rest) : stripQuotes (quote :: rest) = .ok rest.dropLast := by
  have hpos : 1 ≤ rest.length := List.length_pos_of_ne_nil hne
  have hopen : (sliceBytes (quote :: rest) 1 (quote :: rest).length :
      Except (Fault GoError) Bytes) = .ok rest := by
    have h : (sliceBytes (quote :: rest) (1 : ℕ) (quote :: rest).length :
        Except (Fault GoError) Bytes) = _ := sliceBytes_ok (by simp) le_rfl
    simpa using h
  have hclose : (sliceBytes rest 0 ((rest.length : ℤ) - 1) : Except (Fault GoError) Bytes) =
      .ok rest.dropLast := by
    have h : (sliceBytes rest (0 : ℕ) (rest.length - 1 : ℕ) : Except (Fault GoError) Bytes) = _ :=
      sliceBytes_ok (Nat.zero_le _) (Nat.sub_le _ _)
    rw [Nat.cast_sub hpos] at h
    simpa [List.dropLast_eq_take] using h
  rw [stripQuotes, if_pos ⟨List.prefix_append [quote] rest, hlast⟩, hopen, except_ok_bind, hclose]

/-- A value that is not a lone quote loses the quotes around it and nothing else. -/
theorem stripQuotes_of_ne {value : Bytes} (h : value ≠ [quote]) :
    stripQuotes value = .ok (unquote value) := by
  by_cases hq : [quote] <+: value ∧ [quote] <:+ value
  · obtain ⟨rest, rfl⟩ := hq.1
    have hne : rest ≠ [] := by
      rintro rfl
      exact h rfl
    have hlen : 2 ≤ (quote :: rest).length := by
      have := List.length_pos_of_ne_nil hne
      simp only [List.length_cons]
      omega
    have hlast : (quote :: rest).getLast? = some quote :=
      List.singleton_suffix_iff_getLast?_eq_some.mp hq.2
    rw [List.singleton_append, stripQuotes_quoted hne hq.2, unquote, if_pos ⟨hlen, rfl, hlast⟩,
      List.tail_cons]
  · have hnot : ¬ (2 ≤ value.length ∧ value.head? = some quote ∧ value.getLast? = some quote) := by
      rintro ⟨-, hhead, hlast⟩
      exact hq ⟨List.singleton_prefix_iff_head?_eq_some.mpr hhead,
        List.singleton_suffix_iff_getLast?_eq_some.mpr hlast⟩
    rw [stripQuotes, if_neg hq, unquote, if_neg hnot]

/-- A lone quote is sliced out of range. -/
theorem stripQuotes_quote : stripQuotes [quote] = .error (.panic .sliceBounds) := by decide

/-! ## The loop over the directives -/

section Step

variable {params : Params} {piece key value : Bytes} {pieces : List Bytes}

theorem collectParams_of_cut (hcut : cutAt 0x3D piece = some (key, value)) (h : value ≠ [quote]) :
    collectParams params (piece :: pieces) =
      collectParams (Function.update params key (some (unquote value))) pieces := by
  simp only [collectParams, hcut, stripQuotes_of_ne h, except_ok_bind]

theorem collectParams_of_quote (hcut : cutAt 0x3D piece = some (key, [quote])) :
    collectParams params (piece :: pieces) = .error (.panic .sliceBounds) := by
  simp only [collectParams, hcut, stripQuotes_quote]
  rfl

end Step

/-- Some directive has a lone quote for a value, and no piece before it lacks its `=`. -/
def LoneQuote (pieces : List Bytes) : Prop :=
  ∃ pre piece post key, pieces = pre ++ piece :: post ∧ (∀ p ∈ pre, 0x3D ∈ p) ∧
    cutAt 0x3D piece = some (key, [quote])

theorem loneQuote_cons {piece : Bytes} {pieces : List Bytes} :
    LoneQuote (piece :: pieces) ↔
      (∃ key, cutAt 0x3D piece = some (key, [quote])) ∨ 0x3D ∈ piece ∧ LoneQuote pieces := by
  constructor
  · rintro ⟨pre, p, post, key, hsplit, hpre, hp⟩
    cases pre with
    | nil =>
      obtain ⟨rfl, -⟩ := List.cons.inj hsplit
      exact .inl ⟨key, hp⟩
    | cons q pre =>
      obtain ⟨rfl, rfl⟩ := List.cons.inj hsplit
      exact .inr ⟨hpre piece List.mem_cons_self, pre, p, post, key, rfl,
        fun p hmem => hpre p (List.mem_cons_of_mem _ hmem), hp⟩
  · rintro (⟨key, hp⟩ | ⟨hpiece, pre, p, post, key, rfl, hpre, hp⟩)
    · exact ⟨[], piece, pieces, key, rfl, by simp, hp⟩
    · refine ⟨piece :: pre, p, post, key, rfl, fun q hq => ?_, hp⟩
      rcases List.mem_cons.mp hq with rfl | hq
      · exact hpiece
      · exact hpre q hq

/-- The loop panics on a lone quote, unless it has returned an error before. -/
theorem collectParams_panic_iff (params : Params) (pieces : List Bytes) :
    (∃ p, collectParams params pieces = .error (.panic p)) ↔ LoneQuote pieces := by
  induction pieces generalizing params with
  | nil => simp [collectParams, LoneQuote]
  | cons piece pieces ih =>
    rw [loneQuote_cons, ← cutAt_isSome_iff]
    rcases hcut : cutAt 0x3D piece with _ | ⟨key, value⟩
    · simp [collectParams, hcut]
    · by_cases hvalue : value = [quote]
      · subst hvalue
        exact ⟨fun _ => .inl ⟨key, rfl⟩, fun _ => ⟨_, collectParams_of_quote hcut⟩⟩
      · rw [collectParams_of_cut hcut hvalue, ih]
        simp [hvalue]

/-- What the loop stores: for every key the last value, without the quotes around it. -/
theorem collectParams_ok {params stored : Params} {pieces : List Bytes}
    (h : collectParams params pieces = .ok stored) (key : Bytes) :
    stored key = ((lastWrite Prod.fst (pieces.filterMap (cutAt 0x3D)) key).map
      fun d => unquote d.2).or (params key) := by
  induction pieces generalizing params with
  | nil =>
    obtain rfl := Except.ok.inj h
    rfl
  | cons piece pieces ih =>
    rcases hcut : cutAt 0x3D piece with _ | ⟨k, value⟩
    · rw [collectParams, hcut] at h
      cases h
    · by_cases hvalue : value = [quote]
      · subst hvalue
        rw [collectParams_of_quote hcut] at h
        cases h
      · rw [collectParams_of_cut hcut hvalue] at h
        rw [ih h, List.filterMap_cons_some hcut, lastWrite_cons]
        cases lastWrite Prod.fst (pieces.filterMap (cutAt 0x3D)) key with
        | some d => rfl
        | none =>
          by_cases hk : k = key
          · simp [hk]
          · simp [hk, Function.update_of_ne (Ne.symm hk)]

/-! ## The whole challenge -/

/-- The parser is safe on a challenge: no slice expression is out of range, there is a response or
an error, and every directive that is stored has its value without the quotes around it. -/
structure ParsesSafely (crypto : Crypto) (protocol serverId challenge : Bytes)
    (userToken : Option TokenProto) : Prop where
  slices : ∀ p, getChallengeParams challenge ≠ .error (.panic p)
  returns : ∀ p,
    getDigestMD5ChallengeResponse crypto protocol serverId challenge userToken ≠ .error (.panic p)
  values : ∀ params, getChallengeParams challenge = .ok params → ∀ key,
    params key = (lastWrite Prod.fst (directives challenge) key).map fun d => unquote d.2

/-- Nothing behind the parser panics. -/
theorem panic_of_getDigestMD5ChallengeResponse {crypto : Crypto} {protocol serverId challenge : Bytes}
    {userToken : Option TokenProto} {p : Panic}
    (h : getDigestMD5ChallengeResponse crypto protocol serverId challenge userToken =
      .error (.panic p)) : getChallengeParams challenge = .error (.panic p) := by
  unfold getDigestMD5ChallengeResponse at h
  split at h
  · cases h
  · cases hparams : getChallengeParams challenge with
    | error e =>
      rw [hparams] at h
      have he : e = .panic p := Except.error.inj h
      rw [he]
    | ok params =>
      rw [hparams, except_ok_bind] at h
      by_cases hvalid : (challengeErrors params).length > 0
      · simp only [validateChallengeParameters, if_pos hvalid] at h
        cases h
      · simp only [validateChallengeParameters, if_neg hvalid, except_ok_bind] at h
        unfold generateChallengeReponse at h
        cases hnonce : crypto.nonce <;> simp only [hnonce] at h <;> cases h

/-- The parser is safe exactly when no directive before the first one without a `=` has a lone quote
for a value. -/
theorem parsesSafely_iff (crypto : Crypto) (protocol serverId challenge : Bytes)
    (userToken : Option TokenProto) :
    ParsesSafely crypto protocol serverId challenge userToken ↔
      ¬ LoneQuote (challenge.splitOn 0x2C) := by
  have hpanic := collectParams_panic_iff (fun _ => none) (challenge.splitOn 0x2C)
  constructor
  · intro h hlone
    obtain ⟨p, hp⟩ := hpanic.mpr hlone
    exact h.slices p hp
  · intro hnone
    have hslices : ∀ p, getChallengeParams challenge ≠ .error (.panic p) := fun p hp =>
      hnone (hpanic.mp ⟨p, hp⟩)
    refine ⟨hslices, fun p hp => hslices p (panic_of_getDigestMD5ChallengeResponse hp), ?_⟩
    intro params hparams key
    rw [collectParams_ok hparams key, Option.or_none]
    rfl

/-- A challenge whose realm is a lone quote. -/
theorem challenge_panics :
    getDigestMD5ChallengeResponse ⟨id, some []⟩ [] (ascii "default")
        (ascii "realm=" ++ [quote]) none = .error (.panic .sliceBounds) ∧
      ¬ ParsesSafely ⟨id, some []⟩ [] (ascii "default") (ascii "realm=" ++ [quote]) none := by
  have hpanic : getDigestMD5ChallengeResponse ⟨id, some []⟩ [] (ascii "default")
      (ascii "realm=" ++ [quote]) none = .error (.panic .sliceBounds) := rfl
  exact ⟨hpanic, fun h => h.returns _ hpanic⟩

end YarnCopilot.Security

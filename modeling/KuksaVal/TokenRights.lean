import KuksaVal.Authorization

/-! What a validation leaves in the channel: the rights of the token that it accepts. -/

/-- The fields of a channel that a validation writes agree. -/
structure SameRights (c d : KuksaChannel) : Prop where
  authorized : c.authorized = d.authorized
  authToken : c.authToken = d.authToken
  permissions : c.permissions = d.permissions
  modifyTree : c.modifyTree = d.modifyTree

/-- The fields of a channel that say where it leads agree. -/
structure SameConnection (c d : KuksaChannel) : Prop where
  connectionID : c.connectionID = d.connectionID
  typeOfConnection : c.typeOfConnection = d.typeOfConnection
  grpcSubsMap : c.grpcSubsMap = d.grpcSubsMap

theorem SameConnection.trans {c d e : KuksaChannel} (h : SameConnection c d)
    (h' : SameConnection d e) : SameConnection c e :=
  ⟨h.connectionID.trans h'.connectionID, h.typeOfConnection.trans h'.typeOfConnection,
    h.grpcSubsMap.trans h'.grpcSubsMap⟩

namespace Authenticator

variable (jwt : Jwt) (nm : Numerics) (auth : Authenticator)

/-- The token can be taken apart and its signature is verified. -/
def Verified (token : String) (claims : List (String × Json)) : Prop :=
  jwt.decode token = .ok claims ∧ jwt.verify auth.pubkey token = .ok ()

/-- The claims of the rights can be read. -/
def RightsRead (claims : List (String × Json)) (modify : Bool)
    (permissions : List (String × Json)) : Prop :=
  mayModifyTree nm claims = .ok modify ∧ permissionsOf claims = .ok permissions

/-- The channel once its token is verified. -/
def verifiedChannel (channel : KuksaChannel) (token : String) : KuksaChannel :=
  (channel.setAuthorized true).setAuthToken token

/-- The channel once the rights are resolved. A right to the tree is only ever added. -/
def grantedChannel (channel : KuksaChannel) (token : String) (modify : Bool)
    (permissions : List (String × Json)) : KuksaChannel :=
  { verifiedChannel channel token with
    modifyTree := channel.modifyTree || modify, permissions := permissions }

variable {jwt nm auth} {channel channel' : KuksaChannel} {token : String}

/-- A validation refuses the token, or keeps it with the rights it could read. -/
theorem validateToken_cases (jwt : Jwt) (nm : Numerics) (auth : Authenticator)
    (channel : KuksaChannel) (token : String) :
    ((¬ ∃ claims, Verified jwt auth token claims) ∧
      validateToken jwt nm auth channel token = (-1, channel)) ∨
    ∃ claims, Verified jwt auth token claims ∧
      ((∃ e, expiry nm claims = .error e ∧
          validateToken jwt nm auth channel token = (-1, verifiedChannel channel token)) ∨
        ∃ ttl, expiry nm claims = .ok ttl ∧
          validateToken jwt nm auth channel token = (ttl, verifiedChannel channel token)) := by
  unfold validateToken
  cases hd : jwt.decode token with
  | error e =>
    left
    simp [Verified, hd]
  | ok claims =>
    cases hv : jwt.verify auth.pubkey token with
    | error e =>
      left
      simp [Verified, hv]
    | ok u =>
      right
      refine ⟨claims, ⟨hd, hv⟩, ?_⟩
      cases he : expiry nm claims with
      | error e =>
        left
        exact ⟨e, rfl, by simp only [he]; rfl⟩
      | ok ttl =>
        right
        exact ⟨ttl, rfl, by simp only [he]; rfl⟩

theorem resolvePermissions_eq_ok_iff {claims : List (String × Json)}
    (hd : jwt.decode channel.authToken = .ok claims) :
    resolvePermissions jwt nm channel = (.ok (), channel') ↔
      ∃ modify permissions, RightsRead nm claims modify permissions ∧
        channel' = { channel with
          modifyTree := channel.modifyTree || modify, permissions := permissions } := by
  unfold resolvePermissions RightsRead
  simp only [hd]
  cases hm : mayModifyTree nm claims with
  | error e => simp
  | ok modify =>
    cases hp : permissionsOf claims with
    | error e => simp
    | ok permissions =>
      simp only [Prod.mk.injEq, true_and, Except.ok.injEq]
      have hc : (if modify = true then channel.enableModifyTree else channel).setPermissions
          permissions = { channel with
            modifyTree := channel.modifyTree || modify, permissions := permissions } := by
        cases modify <;> simp [KuksaChannel.setPermissions, KuksaChannel.enableModifyTree]
      rw [hc]
      constructor
      · rintro rfl
        exact ⟨modify, permissions, ⟨rfl, rfl⟩, rfl⟩
      · rintro ⟨m, ps, ⟨rfl, rfl⟩, rfl⟩
        rfl

theorem resolvePermissions_connection :
    SameConnection (resolvePermissions jwt nm channel).2 channel := by
  unfold resolvePermissions
  split
  · exact ⟨rfl, rfl, rfl⟩
  · rename_i claims _
    split
    · exact ⟨rfl, rfl, rfl⟩
    · rename_i modify _
      cases permissionsOf claims <;> cases modify <;> exact ⟨rfl, rfl, rfl⟩

/-- A validation does not touch the connection. -/
theorem validate_connection :
    SameConnection (auth.validate jwt nm channel token).2 channel := by
  have hv : SameConnection (validateToken jwt nm auth channel token).2 channel := by
    rcases validateToken_cases jwt nm auth channel token with
      ⟨-, he⟩ | ⟨_, -, ⟨_, -, he⟩ | ⟨_, -, he⟩⟩
    · rw [he]
      exact ⟨rfl, rfl, rfl⟩
    · rw [he]
      exact ⟨rfl, rfl, rfl⟩
    · rw [he]
      exact ⟨rfl, rfl, rfl⟩
  unfold validate
  split
  rename_i ttl channel' hval
  rw [hval] at hv
  have hr : SameConnection (resolvePermissions jwt nm channel').2 channel' :=
    resolvePermissions_connection
  split_ifs
  · split
    · rename_i hres
      rw [hres] at hr
      exact hr.trans hv
    · rename_i hres
      rw [hres] at hr
      exact hr.trans hv
  · exact hv

theorem resolvePermissions_failed {e : Exn} (h : resolvePermissions jwt nm channel = (.error e, channel')) :
    channel'.permissions = channel.permissions := by
  unfold resolvePermissions at h
  cases hd : jwt.decode channel.authToken with
  | error e' =>
    simp only [hd] at h
    obtain ⟨-, rfl⟩ := Prod.mk.inj h
    rfl
  | ok claims =>
    cases hm : mayModifyTree nm claims with
    | error e' =>
      simp only [hd, hm] at h
      obtain ⟨-, rfl⟩ := Prod.mk.inj h
      rfl
    | ok modify =>
      cases hp : permissionsOf claims with
      | error e' =>
        simp only [hd, hm, hp] at h
        obtain ⟨-, rfl⟩ := Prod.mk.inj h
        cases modify <;> rfl
      | ok permissions => simp [hd, hm, hp] at h

variable (jwt nm auth channel token) in
/-- A validation gives other permissions only together with a time to live. -/
theorem validate_permissions :
    (auth.validate jwt nm channel token).2.permissions = channel.permissions ∨
      ∃ ttl, 0 < ttl ∧ (auth.validate jwt nm channel token).1 = .ok ttl := by
  have hkeep : (validateToken jwt nm auth channel token).2.permissions = channel.permissions := by
    rcases validateToken_cases jwt nm auth channel token with
      ⟨-, he⟩ | ⟨_, -, ⟨_, -, he⟩ | ⟨_, -, he⟩⟩ <;> rw [he] <;> rfl
  unfold validate
  split
  rename_i ttl channel' hval
  rw [hval] at hkeep
  split_ifs with hpos
  · split
    · rename_i hr
      exact .inl ((resolvePermissions_failed hr).trans hkeep)
    · exact .inr ⟨ttl, hpos, rfl⟩
  · exact .inl hkeep

theorem asBool_throwsOnly (j : Json) : ThrowsOnly [.domainError] (asBool nm j) := by
  intro e he
  rw [asBool_eq_error he]
  simp

/-- What is thrown out of a validation: a claim about the rights that cannot be read. -/
theorem validate_throwsOnly :
    ThrowsOnly [.runtimeError, .domainError] (auth.validate jwt nm channel token).1 := by
  have hmodify (claims : List (String × Json)) :
      ThrowsOnly [.domainError] (mayModifyTree nm claims) := by
    unfold mayModifyTree
    split
    · simp
    · exact asBool_throwsOnly _
  have hperm (claims : List (String × Json)) : ThrowsOnly [.domainError] (permissionsOf claims) := by
    unfold permissionsOf
    split
    · simp
    · rw [throwsOnly_map]
      unfold Json.objectRange
      split <;> simp
  have hres (c : KuksaChannel) :
      ThrowsOnly [.runtimeError, .domainError] (resolvePermissions jwt nm c).1 := by
    unfold resolvePermissions
    split
    · simp
    · rename_i claims _
      split
      · rename_i e he
        exact ((hmodify claims).mono (by decide)).of_error he
      · cases hp : permissionsOf claims with
        | error e =>
          have hk := hperm claims e hp
          simpa using Or.inr (List.mem_singleton.mp hk)
        | ok permissions => simp
  unfold validate
  split
  rename_i ttl channel' _
  split_ifs
  · split
    · rename_i e _ hr
      exact (hres channel').of_error (congrArg Prod.fst hr)
    · simp
  · simp

/-- What a validation returns, unless it failed, is the expiry of a verified token. -/
theorem expiry_of_validate {ttl : ℤ} (h : (auth.validate jwt nm channel token).1 = .ok ttl)
    (hne : ttl ≠ -1) : ∃ claims, Verified jwt auth token claims ∧ expiry nm claims = .ok ttl := by
  have hfst : (validateToken jwt nm auth channel token).1 = ttl := by
    unfold validate at h
    split at h
    rename_i ttl' channel₁ hval
    rw [hval]
    split_ifs at h
    · split at h
      · simp at h
      · exact Except.ok.inj h
    · exact Except.ok.inj h
  rcases validateToken_cases jwt nm auth channel token with
    ⟨-, he⟩ | ⟨claims, hv, ⟨e, -, he⟩ | ⟨n, hx, he⟩⟩
  · rw [he] at hfst
    exact absurd hfst.symm hne
  · rw [he] at hfst
    exact absurd hfst.symm hne
  · rw [he] at hfst
    obtain rfl : n = ttl := hfst
    exact ⟨claims, hv, hx⟩

/-- A positive time to live is the one of a verified token all of whose rights are read. -/
theorem validate_positive_iff {ttl : ℤ} (hpos : 0 < ttl) :
    auth.validate jwt nm channel token = (.ok ttl, channel') ↔
      ∃ claims modify permissions, Verified jwt auth token claims ∧
        expiry nm claims = .ok ttl ∧ RightsRead nm claims modify permissions ∧
        channel' = grantedChannel channel token modify permissions := by
  unfold validate
  rcases validateToken_cases jwt nm auth channel token with
    ⟨hno, he⟩ | ⟨claims, hv, ⟨e, hx, he⟩ | ⟨n, hx, he⟩⟩
  · simp only [he]
    constructor
    · intro h
      simp only [show ¬ (0 : ℤ) < -1 by decide, ↓reduceIte, Prod.mk.injEq, Except.ok.injEq] at h
      omega
    · rintro ⟨claims, -, -, hv, -⟩
      exact absurd ⟨claims, hv⟩ hno
  · simp only [he]
    constructor
    · intro h
      simp only [show ¬ (0 : ℤ) < -1 by decide, ↓reduceIte, Prod.mk.injEq, Except.ok.injEq] at h
      omega
    · rintro ⟨claims', -, -, hv', hx', -⟩
      obtain rfl : claims = claims' := Except.ok.inj (hv.1.symm.trans hv'.1)
      simp [hx] at hx'
  · simp only [he]
    have hd : jwt.decode (verifiedChannel channel token).authToken = .ok claims := hv.1
    constructor
    · intro h
      split_ifs at h with hn
      · cases hr : resolvePermissions jwt nm (verifiedChannel channel token) with
        | mk r d =>
          cases r with
          | error e => simp [hr] at h
          | ok u =>
            simp only [hr, Prod.mk.injEq, Except.ok.injEq] at h
            obtain ⟨rfl, rfl⟩ := h
            obtain ⟨modify, permissions, hread, rfl⟩ :=
              (resolvePermissions_eq_ok_iff hd).mp hr
            exact ⟨claims, modify, permissions, hv, hx, hread, rfl⟩
      · simp only [Prod.mk.injEq, Except.ok.injEq] at h
        omega
    · rintro ⟨claims', modify, permissions, hv', hx', hread, rfl⟩
      obtain rfl : claims = claims' := Except.ok.inj (hv.1.symm.trans hv'.1)
      obtain rfl : n = ttl := Except.ok.inj (hx.symm.trans hx')
      have hr : resolvePermissions jwt nm (verifiedChannel channel token) =
          (.ok (), grantedChannel channel token modify permissions) :=
        (resolvePermissions_eq_ok_iff hd).mpr ⟨modify, permissions, hread, rfl⟩
      simp [hpos, hr]

/-- The claim `exp` is there and its text is a number of 32 bits. -/
def ReadsExpiry (nm : Numerics) (claims : List (String × Json)) (n : ℤ) : Prop :=
  ∃ exp, Members.get? "exp" claims = some exp ∧ nm.numeral exp.asString = some n ∧
    IntType.lower ⟨32, true⟩ ≤ n ∧ n ≤ IntType.upper ⟨32, true⟩

theorem expiry_eq_ok_iff {claims : List (String × Json)} {n : ℤ} :
    expiry nm claims = .ok n ↔ ReadsExpiry nm claims n := by
  unfold expiry ReadsExpiry
  cases hm : Members.get? "exp" claims with
  | none => simp [Json.member, hm]
  | some exp =>
    simp only [Json.member, hm, Option.some.injEq, exists_eq_left']
    unfold asInteger
    cases hn : nm.numeral exp.asString with
    | none => simp [hn]
    | some k =>
      simp only [hn, Option.some.injEq]
      split_ifs with hk
      · simp only [Except.ok.injEq]
        constructor
        · rintro rfl
          exact ⟨rfl, hk⟩
        · exact fun h => h.1
      · simp only [false_iff]
        rintro ⟨rfl, hr⟩
        exact hk hr

/-- A failed validation has left the channel alone, or keeps the token it could not time. -/
theorem validate_failed_iff :
    auth.validate jwt nm channel token = (.ok (-1), channel') ↔
      ((¬ ∃ claims, Verified jwt auth token claims) ∧ channel' = channel) ∨
      ∃ claims, Verified jwt auth token claims ∧
        (∀ n, ReadsExpiry nm claims n → n = -1) ∧ channel' = verifiedChannel channel token := by
  have hneg : ¬ (0 : ℤ) < -1 := by decide
  unfold validate
  rcases validateToken_cases jwt nm auth channel token with
    ⟨hno, he⟩ | ⟨claims, hv, ⟨e, hx, he⟩ | ⟨n, hx, he⟩⟩
  · simp only [he, hneg, ↓reduceIte, Prod.mk.injEq, true_and]
    constructor
    · rintro rfl
      exact Or.inl ⟨hno, rfl⟩
    · rintro (⟨-, rfl⟩ | ⟨claims, hv, -⟩)
      · rfl
      · exact absurd ⟨claims, hv⟩ hno
  · simp only [he, hneg, ↓reduceIte, Prod.mk.injEq, true_and]
    constructor
    · rintro rfl
      refine Or.inr ⟨claims, hv, ?_, rfl⟩
      intro n hn
      rw [← expiry_eq_ok_iff, hx] at hn
      simp at hn
    · rintro (⟨hno, -⟩ | ⟨-, -, -, rfl⟩)
      · exact absurd ⟨claims, hv⟩ hno
      · rfl
  · simp only [he]
    constructor
    · intro h
      split_ifs at h with hpos
      · cases hr : resolvePermissions jwt nm (verifiedChannel channel token) with
        | mk r d =>
          cases r with
          | error e => simp [hr] at h
          | ok u =>
            simp only [hr, Prod.mk.injEq, Except.ok.injEq] at h
            omega
      · obtain ⟨hn, rfl⟩ := Prod.mk.inj h
        obtain rfl : n = -1 := Except.ok.inj hn
        refine Or.inr ⟨claims, hv, ?_, rfl⟩
        intro k hk
        rw [← expiry_eq_ok_iff, hx] at hk
        exact (Except.ok.inj hk).symm
    · rintro (⟨hno, -⟩ | ⟨claims', hv', hall, rfl⟩)
      · exact absurd ⟨claims, hv⟩ hno
      · obtain rfl : claims = claims' := Except.ok.inj (hv.1.symm.trans hv'.1)
        obtain rfl : n = -1 := hall n (expiry_eq_ok_iff.mp hx)
        simp

/-- Either way the channel has the rights that it had. -/
theorem permissions_of_validate_failed
    (h : auth.validate jwt nm channel token = (.ok (-1), channel')) :
    channel'.permissions = channel.permissions ∧ channel'.modifyTree = channel.modifyTree := by
  rcases validate_failed_iff.mp h with ⟨-, rfl⟩ | ⟨-, -, -, rfl⟩
  · exact ⟨rfl, rfl⟩
  · exact ⟨rfl, rfl⟩

theorem sameRights_verifiedChannel :
    SameRights (verifiedChannel channel token) channel ↔
      channel.authorized = true ∧ channel.authToken = token := by
  constructor
  · rintro ⟨ha, ht, -, -⟩
    exact ⟨ha.symm, ht.symm⟩
  · rintro ⟨ha, ht⟩
    exact ⟨ha.symm, ht.symm, rfl, rfl⟩

/-- Two channels that accept one token end with the same rights exactly when the token gives
the right to the tree or the two agreed on that right before. -/
theorem sameRights_iff (jwt : Jwt) (nm : Numerics) (auth : Authenticator) (token : String)
    (channel₁ channel₂ channel₁' channel₂' : KuksaChannel) (ttl₁ ttl₂ : ℤ)
    (hpos₁ : 0 < ttl₁) (hpos₂ : 0 < ttl₂)
    (h₁ : auth.validate jwt nm channel₁ token = (.ok ttl₁, channel₁'))
    (h₂ : auth.validate jwt nm channel₂ token = (.ok ttl₂, channel₂')) :
    SameRights channel₁' channel₂' ↔
      (∃ claims, jwt.decode token = .ok claims ∧ mayModifyTree nm claims = .ok true) ∨
        channel₁.modifyTree = channel₂.modifyTree := by
  obtain ⟨claims, modify, permissions, hv, -, hread, rfl⟩ := (validate_positive_iff hpos₁).mp h₁
  obtain ⟨claims', modify', permissions', hv', -, hread', rfl⟩ :=
    (validate_positive_iff hpos₂).mp h₂
  obtain rfl : claims = claims' := Except.ok.inj (hv.1.symm.trans hv'.1)
  obtain rfl : modify = modify' := Except.ok.inj (hread.1.symm.trans hread'.1)
  obtain rfl : permissions = permissions' := Except.ok.inj (hread.2.symm.trans hread'.2)
  have hgrant : (∃ claims, jwt.decode token = .ok claims ∧ mayModifyTree nm claims = .ok true) ↔
      modify = true := by
    constructor
    · rintro ⟨claims', hd, hm⟩
      obtain rfl : claims = claims' := Except.ok.inj (hv.1.symm.trans hd)
      exact Except.ok.inj (hread.1.symm.trans hm)
    · rintro rfl
      exact ⟨claims, hv.1, hread.1⟩
  rw [hgrant]
  constructor
  · intro h
    have hm : (channel₁.modifyTree || modify) = (channel₂.modifyTree || modify) := h.modifyTree
    cases modify with
    | true => exact Or.inl rfl
    | false => exact Or.inr (by simpa using hm)
  · intro h
    refine ⟨rfl, rfl, rfl, ?_⟩
    show (channel₁.modifyTree || modify) = (channel₂.modifyTree || modify)
    rcases h with rfl | h
    · simp
    · rw [h]

/-- Validation is all or nothing for a channel and a token, and returns the expiry of an
accepted token, exactly when every verified token tells a readable expiry, unless the channel
holds it already, and tells readable rights with it. -/
theorem validate_unchanged_iff (jwt : Jwt) (nm : Numerics) (auth : Authenticator)
    (signed : String → String → Prop) (now : ℤ) (hnow : 0 ≤ now)
    (hverify : ∀ key token claims, jwt.decode token = .ok claims → signed key token →
      (∀ exp, Members.get? "exp" claims = some exp → ∃ n, exp = .int n ∧ now < n) →
        jwt.verify key token = .ok ())
    (channel : KuksaChannel) (token : String) :
    ((∀ channel', auth.validate jwt nm channel token = (.ok (-1), channel') →
          SameRights channel' channel) ∧
        ∀ claims n, jwt.decode token = .ok claims → signed auth.pubkey token →
          Members.get? "exp" claims = some (.int n) → now < n → n ≤ IntType.upper ⟨32, true⟩ →
            ∃ channel', auth.validate jwt nm channel token = (.ok n, channel')) ↔
      ∀ claims, jwt.decode token = .ok claims →
        (jwt.verify auth.pubkey token = .ok () → (∃ n, ReadsExpiry nm claims n ∧ n ≠ -1) ∨
            channel.authorized = true ∧ channel.authToken = token) ∧
          ∀ n, signed auth.pubkey token → Members.get? "exp" claims = some (.int n) → now < n →
            n ≤ IntType.upper ⟨32, true⟩ → ∃ modify permissions,
              RightsRead nm claims modify permissions := by
  have hread {claims : List (String × Json)} {n : ℤ}
      (he : Members.get? "exp" claims = some (.int n)) (hn : now < n)
      (hu : n ≤ IntType.upper ⟨32, true⟩) : ReadsExpiry nm claims n := by
    refine ⟨.int n, he, nm.numeral_toString n, ?_, hu⟩
    have hl : IntType.lower ⟨32, true⟩ ≤ 0 := by decide
    omega
  have hverified {claims : List (String × Json)} {n : ℤ} (hd : jwt.decode token = .ok claims)
      (hs : signed auth.pubkey token) (he : Members.get? "exp" claims = some (.int n))
      (hn : now < n) : Verified jwt auth token claims := by
    refine ⟨hd, hverify _ _ claims hd hs ?_⟩
    intro exp hexp
    rw [he] at hexp
    exact ⟨n, (Option.some.inj hexp).symm, hn⟩
  constructor
  · rintro ⟨hsame, hexp⟩ claims hd
    constructor
    · intro hv
      by_contra hno
      obtain ⟨hnone, hheld⟩ := not_or.mp hno
      apply hheld
      rw [← sameRights_verifiedChannel]
      apply hsame
      refine validate_failed_iff.mpr (Or.inr ⟨claims, ⟨hd, hv⟩, ?_, rfl⟩)
      intro n hn
      by_contra hne
      exact hnone ⟨n, hn, hne⟩
    · intro n hs he hn hu
      obtain ⟨channel', hval⟩ := hexp claims n hd hs he hn hu
      obtain ⟨claims', modify, permissions, hv, -, hr, -⟩ :=
        (validate_positive_iff (by omega)).mp hval
      obtain rfl : claims = claims' := Except.ok.inj (hd.symm.trans hv.1)
      exact ⟨modify, permissions, hr⟩
  · intro h
    constructor
    · intro channel' hval
      rcases validate_failed_iff.mp hval with ⟨-, rfl⟩ | ⟨claims, hv, hall, rfl⟩
      · exact ⟨rfl, rfl, rfl, rfl⟩
      · rcases (h claims hv.1).1 hv.2 with ⟨n, hn, hne⟩ | hheld
        · exact absurd (hall n hn) hne
        · exact sameRights_verifiedChannel.mpr hheld
    · intro claims n hd hs he hn hu
      obtain ⟨modify, permissions, hr⟩ := (h claims hd).2 n hs he hn hu
      exact ⟨_, (validate_positive_iff (by omega)).mpr ⟨claims, modify, permissions,
        hverified hd hs he hn, expiry_eq_ok_iff.mpr (hread he hn hu), hr, rfl⟩⟩

section Tokens

/-- Three signed tokens: the last one says nothing about its expiry. -/
def tokenClaims : List (String × List (String × Json)) :=
  [("editor", [("exp", .int 2000000000), ("modifyTree", .bool true)]),
   ("reader", [("exp", .int 2000000000), ("kuksa-vss", .obj [("Vehicle.*", .str "r")])]),
   ("endless", [("sub", .str "Example JWT")])]

def tokenJwt : Jwt where
  decode token := match Members.get? token tokenClaims with
    | some claims => .ok claims
    | none => .error "invalid token supplied"
  verify key _ := if key = "key" then .ok () else .error "failed to verify signature"

/-- The tokens expire at the same time, or never. -/
theorem tokenJwt_exp {token : String} {claims : List (String × Json)} {exp : Json}
    (h : tokenJwt.decode token = .ok claims) (he : Members.get? "exp" claims = some exp) :
    exp = .int 2000000000 := by
  simp only [tokenJwt] at h
  split at h
  · rename_i claims' hc
    obtain rfl := Except.ok.inj h
    have hm := Members.mem_of_get? hc
    simp only [tokenClaims, List.mem_cons, Prod.mk.injEq, List.not_mem_nil, or_false] at hm
    rcases hm with ⟨-, rfl⟩ | ⟨-, rfl⟩ | ⟨-, rfl⟩
    · simpa [Members.get?_cons] using he.symm
    · simpa [Members.get?_cons] using he.symm
    · simp [Members.get?_cons] at he
  · simp at h

theorem reader_accepted (channel : KuksaChannel) :
    validate tokenJwt .decimal ⟨"key"⟩ channel "reader" = (.ok 2000000000,
      grantedChannel channel "reader" false [("Vehicle.*", .str "r")]) := by
  rw [validate_positive_iff (by decide)]
  refine ⟨_, false, [("Vehicle.*", .str "r")], ⟨rfl, rfl⟩, ?_, ⟨rfl, rfl⟩, rfl⟩
  decide +kernel

/-- A channel that was given the right to the tree by an earlier token. -/
def editorChannel : KuksaChannel := (validate tokenJwt .decimal ⟨"key"⟩ {} "editor").2

theorem editorChannel_modifyTree : editorChannel.modifyTree = true := by decide +kernel

theorem sameRights_iff_reader :
    ¬ SameRights (grantedChannel editorChannel "reader" false [("Vehicle.*", .str "r")])
      (grantedChannel {} "reader" false [("Vehicle.*", .str "r")]) := by
  rw [sameRights_iff tokenJwt .decimal ⟨"key"⟩ "reader" editorChannel {} _ _ 2000000000 2000000000
    (by decide) (by decide) (reader_accepted _) (reader_accepted _)]
  rintro (⟨claims, hd, hm⟩ | h)
  · obtain rfl : [("exp", Json.int 2000000000), ("kuksa-vss", .obj [("Vehicle.*", .str "r")])] =
        claims := Except.ok.inj hd
    simp [mayModifyTree, Members.get?] at hm
  · simp [editorChannel_modifyTree] at h

/-- The right to the tree outlives the token that gave it. -/
theorem validate_keeps_modifyTree :
    ¬ ∀ (jwt : Jwt) (nm : Numerics) (auth : Authenticator) (token : String)
      (channel₁ channel₂ channel₁' channel₂' : KuksaChannel) (ttl₁ ttl₂ : ℤ), 0 < ttl₁ → 0 < ttl₂ →
        auth.validate jwt nm channel₁ token = (.ok ttl₁, channel₁') →
        auth.validate jwt nm channel₂ token = (.ok ttl₂, channel₂') →
          SameRights channel₁' channel₂' := by
  intro h
  have hs := h tokenJwt .decimal ⟨"key"⟩ "reader" editorChannel {} _ _ 2000000000 2000000000
    (by decide) (by decide) (reader_accepted _) (reader_accepted _)
  have hm : (editorChannel.modifyTree || false) = (false || false) := hs.modifyTree
  simp [editorChannel_modifyTree] at hm

theorem tokenJwt_verify (key token : String) (claims : List (String × Json))
    (_ : tokenJwt.decode token = .ok claims) (hs : key = "key")
    (_ : ∀ exp, Members.get? "exp" claims = some exp → ∃ n, exp = .int n ∧ 1700000000 < n) :
    tokenJwt.verify key token = .ok () := by
  subst hs
  rfl

/-- The token without an expiry is refused and kept, by a channel that had none. -/
theorem validate_unchanged_iff_endless :
    ¬ ((∀ channel', validate tokenJwt .decimal ⟨"key"⟩ {} "endless" = (.ok (-1), channel') →
          SameRights channel' {}) ∧
        ∀ claims n, tokenJwt.decode "endless" = .ok claims → "key" = "key" →
          Members.get? "exp" claims = some (.int n) → 1700000000 < n →
            n ≤ IntType.upper ⟨32, true⟩ →
              ∃ channel', validate tokenJwt .decimal ⟨"key"⟩ {} "endless" = (.ok n, channel')) := by
  rw [validate_unchanged_iff tokenJwt .decimal ⟨"key"⟩ (fun key _ => key = "key") 1700000000
    (by decide) tokenJwt_verify {} "endless"]
  intro h
  rcases (h [("sub", .str "Example JWT")] rfl).1 rfl with ⟨n, ⟨exp, he, -⟩, -⟩ | ⟨ha, -⟩
  · simp [Members.get?] at he
  · simp at ha

theorem validate_endless :
    ¬ ∀ channel', validate tokenJwt .decimal ⟨"key"⟩ {} "endless" = (.ok (-1), channel') →
      SameRights channel' {} := by
  intro h
  have ha := (h (verifiedChannel {} "endless") (by decide +kernel)).authorized
  simp [verifiedChannel, KuksaChannel.setAuthorized, KuksaChannel.setAuthToken] at ha

end Tokens

end Authenticator

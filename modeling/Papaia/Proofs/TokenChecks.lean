/-
Module: Papaia.Proofs.TokenChecks
Purpose: What stands behind the claims that are taken from a token: a key of the provider, an algorithm
  of the key's own, and the payload the key vouches for.
Trusted boundary: none
Main exports: Listed, Signed, findJwk_some, algorithmForKey_ok, signed_of_validated
-/
import Papaia.Auth.Keys

namespace Papaia.Auth.Keys

variable {jose : Jose} {client : Client}

/-! ### What stands behind claims that are believed -/

/-- A key stands in a JWKS. -/
def Listed (jwks : Jwks) (key : Jwk) : Prop :=
  ∃ (fields : Mapping) (keys : List Val),
    jwks = .map fields ∧ fields.get? "keys" = some (.list keys) ∧ Val.map key ∈ keys

/-- Claims with the roles that an access token brings. -/
def withRolesOf (jose : Jose) (rolePath : List String) (own : Claims) (token : String) : Claims :=
  { own with roles := rolesFromUnverifiedJwt jose token [rolePath, ["realm_access", "roles"]] }

/-- A key, an algorithm of its own and the payload it vouches for, behind the claims of a token. -/
structure Signed (jose : Jose) (client : Client) (idToken : String) (accessToken : Option String)
    (wall : Int) (jwks : Jwks) (claims : Claims) (key : Jwk) (alg : String) (payload : Mapping) :
    Prop where
  listed : Listed jwks key
  named : ∃ header kid, jose.header idToken = some header ∧ header.getD "kid" = .str kid ∧
    key.getD "kid" = .str kid ∧ kid ≠ ""
  signs : key.getD "use" = .null ∨ key.getD "use" = .str "sig"
  algorithm : key.getD "alg" = .str alg ∨
    key.getD "alg" = .null ∧
      (key.getD "kty" = .str "RSA" ∧ alg = "RS256" ∨ key.getD "kty" = .str "EC" ∧ alg = "ES256")
  permitted : alg ∈ allowedAlgs
  verified : jose.decode idToken key alg client.clientId accessToken wall = .ok payload
  subject : payload.getD "sub" = .str claims.sub ∧ claims.sub ≠ ""
  expiry : intOf (payload.getD "exp") = some (.ok claims.exp)
  roles : ∃ own : Claims, extractClaims jose client.rolePath payload = .ok own ∧
    (claims = own ∨ own.roles = [] ∧
      ∃ token, accessToken = some token ∧ claims = withRolesOf jose client.rolePath own token)

theorem isNull_eq_true {v : Val} : isNull v = true ↔ v = .null := by
  cases v with
  | scalar s => cases s <;> simp [isNull]
  | list | set | map => simp [isNull]

theorem str?_beq {v : Val} {text : String} : (v.str? == some text) = true ↔ v = .str text := by
  rw [beq_iff_eq, Val.str?_eq_some]

theorem names_iff {kid : String} {key : Jwk} : names kid key = true ↔
    key.getD "kid" = .str kid ∧ (key.getD "use" = .null ∨ key.getD "use" = .str "sig") := by
  rw [names, Bool.and_eq_true, Keys.signs, Bool.or_eq_true, str?_beq, str?_beq, isNull_eq_true]

theorem findIn_some {kid : String} {keys : List Val} {key : Jwk}
    (h : findIn kid keys = .ok (some key)) : .map key ∈ keys ∧ names kid key = true := by
  induction keys using findIn.induct kid with
  | case1 => cases h
  | case2 entry rest hnames =>
      rw [findIn, if_pos hnames] at h
      cases h
      exact ⟨List.mem_cons_self, hnames⟩
  | case3 entry rest hnames ih =>
      rw [findIn, if_neg hnames] at h
      exact ⟨List.mem_cons_of_mem _ (ih h).1, (ih h).2⟩
  | case4 entry rest hmap =>
      rw [findIn] at h
      · cases h
      · exact hmap

theorem findIn_error {kid : String} {keys : List Val} {failure : Failure}
    (h : findIn kid keys = .error failure) : failure = .raised := by
  induction keys using findIn.induct kid with
  | case1 => cases h
  | case2 entry rest hnames =>
      rw [findIn, if_pos hnames] at h
      cases h
  | case3 entry rest hnames ih =>
      rw [findIn, if_neg hnames] at h
      exact ih h
  | case4 entry rest hmap =>
      rw [findIn] at h
      · exact (Except.error.inj h).symm
      · exact hmap

theorem findJwk_some {jwks : Jwks} {kid : String} {key : Jwk}
    (h : findJwk jwks kid = .ok (some key)) :
    Listed jwks key ∧ names kid key = true := by
  unfold findJwk at h
  split at h
  next => cases h
  next fields hfields =>
    split at h
    next keys hkeys =>
      obtain ⟨hmem, hnames⟩ := findIn_some h
      refine ⟨⟨fields, keys, Val.mapping?_eq_some.mp hfields, ?_, hmem⟩, hnames⟩
      cases hget : fields.get? "keys" with
      | none =>
          rw [hget] at hkeys
          obtain rfl := Val.list.inj hkeys
          cases hmem
      | some value =>
          rw [hget] at hkeys
          exact congrArg some hkeys
    next => split at h <;> cases h
    next => split at h <;> cases h
    next => cases h

theorem findJwk_error {jwks : Jwks} {kid : String} {failure : Failure}
    (h : findJwk jwks kid = .error failure) : failure = .raised := by
  unfold findJwk at h
  split at h
  next => exact (Except.error.inj h).symm
  next =>
    split at h
    next => exact findIn_error h
    next =>
      split at h
      · cases h
      · exact (Except.error.inj h).symm
    next =>
      split at h
      · cases h
      · exact (Except.error.inj h).symm
    next => exact (Except.error.inj h).symm

theorem algorithmForKey_ok {key : Jwk} {alg : String} (h : algorithmForKey key = .ok alg) :
    (key.getD "alg" = .str alg ∨
      key.getD "alg" = .null ∧
        (key.getD "kty" = .str "RSA" ∧ alg = "RS256" ∨ key.getD "kty" = .str "EC" ∧ alg = "ES256")) ∧
      alg ∈ allowedAlgs := by
  unfold algorithmForKey at h
  dsimp only at h
  split at h
  next hnull =>
    have hnull := isNull_eq_true.mp hnull
    split at h
    next hrsa =>
      obtain rfl := Except.ok.inj h
      exact ⟨.inr ⟨hnull, .inl ⟨str?_beq.mp hrsa, rfl⟩⟩, by simp [allowedAlgs]⟩
    next =>
      split at h
      next hec =>
        obtain rfl := Except.ok.inj h
        exact ⟨.inr ⟨hnull, .inr ⟨str?_beq.mp hec, rfl⟩⟩, by simp [allowedAlgs]⟩
      next => cases h
  next =>
    split at h
    next =>
      split at h
      next allowed hfind =>
        obtain rfl := Except.ok.inj h
        have halg := List.find?_some hfind
        exact ⟨.inl (str?_beq.mp halg), List.mem_of_find?_eq_some hfind⟩
      next => cases h
    next => cases h

theorem extractClaims_ok {rolePath : List String} {payload : Mapping} {claims : Claims}
    (h : extractClaims jose rolePath payload = .ok claims) :
    payload.getD "sub" = .str claims.sub ∧ claims.sub ≠ "" ∧
      intOf (payload.getD "exp") = some (.ok claims.exp) := by
  unfold extractClaims at h
  split at h
  next => cases h
  next sub hsub =>
    obtain ⟨hstr, hne⟩ := Option.filter_eq_some_iff.mp hsub
    split at h
    next => cases h
    next exp hexp =>
      cases exp with
      | error => cases h
      | ok exp =>
          dsimp only [bind, Except.bind] at h
          split at h
          next => cases h
          next =>
            obtain rfl := Except.ok.inj h
            exact ⟨Val.str?_eq_some.mp hstr, by simpa using hne, hexp⟩

theorem extractClaims_error {rolePath : List String} {payload : Mapping} {failure : Failure}
    (h : extractClaims jose rolePath payload = .error failure) :
    failure ≠ .oidc .keyNotFound := by
  have hint : ∀ {v : Val} {e : Failure}, intOf v = some (.error e) → e = .raised := by
    intro v e hv
    unfold intOf at hv
    split at hv <;> cases hv
    rfl
  unfold extractClaims at h
  split at h
  next => cases h; simp
  next sub hsub =>
    split at h
    next => cases h; simp
    next exp hexp =>
      cases exp with
      | error e => cases h; simp [hint hexp]
      | ok exp =>
          dsimp only [bind, Except.bind] at h
          split at h
          next e he =>
            obtain rfl := Except.error.inj h
            cases hauth : intOf (payload.getD "auth_time") with
            | none => rw [hauth] at he; cases he
            | some authTime =>
                rw [hauth] at he
                obtain rfl : authTime = .error _ := he
                simp [hint hauth]
          next => cases h

/-- The roles of the access token stand in where the identity token brings none. -/
theorem applyRoleFallback_cases (jose : Jose) (rolePath : List String) (own : Claims)
    (accessToken : Option String) :
    applyRoleFallback jose rolePath own accessToken = own ∨
      own.roles = [] ∧ ∃ token, accessToken = some token ∧
        applyRoleFallback jose rolePath own accessToken = withRolesOf jose rolePath own token := by
  unfold applyRoleFallback
  split
  next hroles =>
    split
    next => exact .inl rfl
    next token htoken =>
      dsimp only
      split
      · exact .inl rfl
      · exact .inr ⟨List.isEmpty_iff.mp hroles, token, (Option.filter_eq_some_iff.mp htoken).1, rfl⟩
  next => exact .inl rfl

theorem applyRoleFallback_same (jose : Jose) (rolePath : List String) (own : Claims)
    (accessToken : Option String) :
    (applyRoleFallback jose rolePath own accessToken).sub = own.sub ∧
      (applyRoleFallback jose rolePath own accessToken).exp = own.exp := by
  rcases applyRoleFallback_cases jose rolePath own accessToken with h | ⟨_, _, _, h⟩
  · rw [h]
    exact ⟨rfl, rfl⟩
  · rw [h]
    exact ⟨rfl, rfl⟩

theorem kidOf_ok {idToken kid : String} (h : kidOf jose idToken = .ok kid) :
    ∃ header, jose.header idToken = some header ∧ header.getD "kid" = .str kid ∧ kid ≠ "" := by
  unfold kidOf at h
  split at h
  next => cases h
  next header hheader =>
    split at h
    next => cases h
    next kid' hkid =>
      obtain rfl := Except.ok.inj h
      obtain ⟨hstr, hne⟩ := Option.filter_eq_some_iff.mp hkid
      exact ⟨header, hheader, Val.str?_eq_some.mp hstr, by simpa using hne⟩

theorem kidOf_error {idToken : String} {failure : Failure} (h : kidOf jose idToken = .error failure) :
    failure ≠ .oidc .keyNotFound := by
  unfold kidOf at h
  split at h
  · cases h; simp
  · split at h <;> cases h
    simp

variable {idToken kid : String} {accessToken : Option String} {wall : Int} {jwks : Jwks} {key : Jwk}

theorem signed_of_validated {claims : Claims} (hkid : kidOf jose idToken = .ok kid)
    (hfind : findJwk jwks kid = .ok (some key))
    (h : validated jose client idToken accessToken key wall = .ok claims) :
    ∃ alg payload, Signed jose client idToken accessToken wall jwks claims key alg payload := by
  unfold validated at h
  cases halg : algorithmForKey key with
  | error => rw [halg] at h; cases h
  | ok alg =>
      rw [halg] at h
      dsimp only [bind, Except.bind] at h
      cases hdecode : jose.decode idToken key alg client.clientId accessToken wall with
      | error => rw [hdecode] at h; cases h
      | ok payload =>
          rw [hdecode] at h
          dsimp only [Except.mapError] at h
          cases hown : extractClaims jose client.rolePath payload with
          | error => rw [hown] at h; cases h
          | ok own =>
              rw [hown] at h
              obtain rfl := Except.ok.inj h
              obtain ⟨hlisted, hnames⟩ := findJwk_some hfind
              obtain ⟨hnamed, hsigns⟩ := names_iff.mp hnames
              obtain ⟨header, hheader, hheaderKid, hne⟩ := kidOf_ok hkid
              obtain ⟨halgorithm, hpermitted⟩ := algorithmForKey_ok halg
              obtain ⟨hsub, hsubNe, hexp⟩ := extractClaims_ok hown
              have hroles := applyRoleFallback_cases jose client.rolePath own accessToken
              have hsame := applyRoleFallback_same jose client.rolePath own accessToken
              exact ⟨alg, payload, {
                listed := hlisted
                named := ⟨header, kid, hheader, hheaderKid, hnamed, hne⟩
                signs := hsigns
                algorithm := halgorithm
                permitted := hpermitted
                verified := hdecode
                subject := by rw [hsame.1]; exact ⟨hsub, hsubNe⟩
                expiry := by rw [hsame.2]; exact hexp
                roles := ⟨own, hown, hroles⟩ }⟩

/-- That no key was found is not said of one that was. -/
theorem validated_ne_keyNotFound :
    validated jose client idToken accessToken key wall ≠ .error (.oidc .keyNotFound) := by
  intro h
  unfold validated at h
  cases halg : algorithmForKey key with
  | error failure =>
      rw [halg] at h
      obtain rfl := Except.error.inj h
      unfold algorithmForKey at halg
      dsimp only at halg
      split at halg
      · split at halg
        · cases halg
        · split at halg <;> cases halg
      · split at halg
        · split at halg <;> cases halg
        · cases halg
  | ok alg =>
      rw [halg] at h
      dsimp only [bind, Except.bind] at h
      cases hdecode : jose.decode idToken key alg client.clientId accessToken wall with
      | error e => rw [hdecode] at h; cases e <;> cases h
      | ok payload =>
          rw [hdecode] at h
          dsimp only [Except.mapError] at h
          cases hown : extractClaims jose client.rolePath payload with
          | error failure =>
              rw [hown] at h
              exact extractClaims_error hown (Except.error.inj h)
          | ok own => rw [hown] at h; cases h

end Papaia.Auth.Keys

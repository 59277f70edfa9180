import FitzDestroyer.Js.Base64
import FitzDestroyer.Js.Division
import FitzDestroyer.ResponseState.Request
import FitzDestroyer.Workload.JsonText

/-!
# Tokens

The scenarios sign their clients in with tokens of their own (`src/auth-token.ts`): the broker
finds the family of a client by the identity in its token.

* `createDestroyerToken` : the model;
* `readToken` : what someone who has a token can read in it;
* `token_spec` : **a token tells its claims, and tokens with other claims are other tokens**.
-/

namespace FitzDestroyer

namespace Auth

open Js Workload

inductive Identity where
  | a
  | b
  | c
  deriving DecidableEq, Repr

def Identity.name : Identity → String
  | .a => "identity-a"
  | .b => "identity-b"
  | .c => "identity-c"

def authSecret : String := "fitz-destroyer-local-auth-only"

def authAudience : String := "fitz-destroyer"

/-- `encode(value)`. -/
def encodePart (value : Json) : List Char := base64url (encode value.stringify)

def header : Json := .obj [("alg", .str "HS256"), ("typ", .str "JWT")]

/-- `Math.floor(nowMs / 1_000) + 3_600`. -/
def expiry (nowMs : ℕ) : Number :=
  (((nowMs : Number).div (1000 : ℕ)).floor).add (3600 : ℕ)

def claims (identity : Identity) (permissions : List String) (exp : Number) : Json :=
  .obj [("sub", .str identity.name), ("iss", .str ""), ("aud", .str authAudience),
    ("exp", .num exp), ("tid", .str identity.name), ("permissions", .arr (permissions.map .str))]

section

variable (hmac : List UInt8 → List UInt8 → List UInt8)

/-- The text that is signed. -/
def signed (identity : Identity) (permissions : List String) (nowMs : ℕ) : List Char :=
  encodePart header ++ '.' :: encodePart (claims identity permissions (expiry nowMs))

/-- `createHmac("sha256", secret).update(input).digest()`, of a function `hmac`. -/
def signature (input : List Char) : List UInt8 :=
  hmac (encode authSecret) (encode (String.ofList input))

def createDestroyerToken (identity : Identity) (permissions : List String) (nowMs : ℕ) : String :=
  let input := signed identity permissions nowMs
  String.ofList (input ++ '.' :: base64url (signature hmac input))

end

/-! ### Reading -/

/-- What can be read in a token. -/
structure Contents where
  header : Json
  claims : Json
  /-- The text that is signed. -/
  input : List Char
  signature : List UInt8

/-- The value of a part. -/
def readPart (part : List Char) : Option Json :=
  (fromBase64url? part).bind fun bytes => parse (decode bytes)

/-- The contents of a token: three parts with dots between them. -/
def readToken (token : String) : Option Contents :=
  match token.toList.splitOn '.' with
  | [header, claims, signature] => do
    let headerValue ← readPart header
    let claimsValue ← readPart claims
    let bytes ← fromBase64url? signature
    return ⟨headerValue, claimsValue, header ++ '.' :: claims, bytes⟩
  | _ => none

theorem readPart_encodePart {fields : Record} (h : (Json.obj fields).Proper) :
    readPart (encodePart (.obj fields)) = some (.obj fields) := by
  have hbrace : (Json.obj fields).stringify.toList.head? ≠ some '\uFEFF' := by
    simp [Json.stringify]
  rw [readPart, encodePart, fromBase64url?_base64url, Option.bind_some,
    ResponseState.decode_encode_of_no_mark hbrace, parse_stringify h]

theorem dot_not_mem (bytes : List UInt8) : '.' ∉ base64url bytes := fun h =>
  absurd (mem_base64url h) (by decide)

theorem expiry_eq {nowMs : ℕ} (h : nowMs ≤ maxSafeInteger) :
    expiry nowMs = ((nowMs / 1000 + 3600 : ℕ) : Number) ∧
      nowMs / 1000 + 3600 ≤ maxSafeInteger := by
  have hle : nowMs / 1000 + 3600 ≤ maxSafeInteger := by
    have hmax : maxSafeInteger = 9007199254740991 := rfl
    omega
  exact ⟨by rw [expiry, Number.floor_div h (by decide) (by decide), Number.add_natCast hle], hle⟩

theorem proper_claims (identity : Identity) (permissions : List String) {nowMs : ℕ}
    (h : nowMs ≤ maxSafeInteger) : (claims identity permissions (expiry nowMs)).Proper := by
  obtain ⟨hexp, hle⟩ := expiry_eq h
  have hitems : ∀ item ∈ permissions.map Json.str, item.Proper := by
    intro item hitem
    obtain ⟨text, -, rfl⟩ := List.mem_map.mp hitem
    trivial
  rw [hexp]
  exact ⟨by simp, Dict.entries_of_indexKey (by simp; decide), trivial, trivial, trivial,
    isDouble_natCast hle, trivial, properItems_iff.mpr hitems, trivial⟩

section

variable {hmac : List UInt8 → List UInt8 → List UInt8} {identity identity' : Identity}
  {permissions permissions' : List String} {nowMs nowMs' : ℕ}

theorem readToken_token (h : nowMs ≤ maxSafeInteger) :
    readToken (createDestroyerToken hmac identity permissions nowMs) = some {
      header := header
      claims := claims identity permissions ((nowMs / 1000 + 3600 : ℕ) : Number)
      input := signed identity permissions nowMs
      signature := signature hmac (signed identity permissions nowMs) } := by
  have hproper : header.Proper :=
    ⟨by decide, Dict.entries_of_indexKey (by simp; decide), trivial, trivial, trivial⟩
  have hheader : readPart (encodePart header) = some header := readPart_encodePart hproper
  have hclaims : readPart (encodePart (claims identity permissions (expiry nowMs))) =
      some (claims identity permissions (expiry nowMs)) :=
    readPart_encodePart (proper_claims identity permissions h)
  have hdot : ∀ v, '.' ∉ encodePart v := fun v => dot_not_mem _
  have hsplit : (createDestroyerToken hmac identity permissions nowMs).toList.splitOn '.' =
      [encodePart header, encodePart (claims identity permissions (expiry nowMs)),
        base64url (signature hmac (signed identity permissions nowMs))] := by
    rw [createDestroyerToken, String.toList_ofList]
    conv_lhs => rw [signed]
    rw [List.append_assoc, List.cons_append, List.splitOn_append_cons_self_of_not_mem (hdot _),
      List.splitOn_append_cons_self_of_not_mem (hdot _), List.splitOn_eq_singleton (dot_not_mem _)]
    rfl
  rw [readToken, hsplit]
  simp only [hheader, hclaims, fromBase64url?_base64url, Option.bind_eq_bind, Option.bind_some,
    Option.pure_def]
  rw [(expiry_eq h).1, signed, (expiry_eq h).1]

theorem claims_inj {n n' : ℕ} :
    claims identity permissions (n : Number) = claims identity' permissions' (n' : Number) ↔
      identity = identity' ∧ permissions = permissions' ∧ n = n' := by
  have hname : identity.name = identity'.name ↔ identity = identity' := by
    cases identity <;> cases identity' <;> decide
  have htexts : permissions.map Json.str = permissions'.map Json.str ↔
      permissions = permissions' :=
    (List.map_injective_iff.mpr fun _ _ h => Json.str.inj h).eq_iff
  have hnumber : ((n : ℕ) : Number) = ((n' : ℕ) : Number) ↔ n = n' :=
    Number.natCast_injective.eq_iff
  simp only [claims, Json.obj.injEq, List.cons.injEq, Prod.mk.injEq, Json.str.injEq, true_and,
    and_true, Json.num.injEq, Json.arr.injEq, hname, htexts, hnumber]
  tauto

/-- **A token tells its claims**, and two tokens are the same only if they have the same identity,
the same permissions, and expire in the same second. -/
theorem token_spec (h : nowMs ≤ maxSafeInteger) :
    readToken (createDestroyerToken hmac identity permissions nowMs) = some {
        header := header
        claims := claims identity permissions ((nowMs / 1000 + 3600 : ℕ) : Number)
        input := signed identity permissions nowMs
        signature := signature hmac (signed identity permissions nowMs) } ∧
      ∀ identity' permissions' nowMs', nowMs' ≤ maxSafeInteger →
        (createDestroyerToken hmac identity permissions nowMs =
            createDestroyerToken hmac identity' permissions' nowMs' ↔
          identity = identity' ∧ permissions = permissions' ∧ nowMs / 1000 = nowMs' / 1000) := by
  refine ⟨readToken_token h, fun identity' permissions' nowMs' h' => ⟨fun heq => ?_, ?_⟩⟩
  · have hread := congrArg readToken heq
    rw [readToken_token h, readToken_token h', Option.some.injEq, Contents.mk.injEq,
      claims_inj] at hread
    obtain ⟨-, ⟨hidentity, hpermissions, hexpiry⟩, -⟩ := hread
    exact ⟨hidentity, hpermissions, by omega⟩
  · rintro ⟨rfl, rfl, hsecond⟩
    have hexpiry : expiry nowMs = expiry nowMs' := by
      rw [(expiry_eq h).1, (expiry_eq h').1, hsecond]
    rw [createDestroyerToken, createDestroyerToken, signed, signed, hexpiry]

/-- The permissions of a role in two domains. -/
def twoPermissions : List String := ["kv://run/**#*", "schedule://**#read"]

theorem token_spec_identityA :
    readToken (createDestroyerToken (fun _ input => input) .a twoPermissions 1500) = some {
        header := header
        claims := claims .a twoPermissions ((1500 / 1000 + 3600 : ℕ) : Number)
        input := signed .a twoPermissions 1500
        signature := signature (fun _ input => input) (signed .a twoPermissions 1500) } ∧
      ∀ identity' permissions' nowMs', nowMs' ≤ maxSafeInteger →
        (createDestroyerToken (fun _ input => input) .a twoPermissions 1500 =
            createDestroyerToken (fun _ input => input) identity' permissions' nowMs' ↔
          .a = identity' ∧ twoPermissions = permissions' ∧ 1500 / 1000 = nowMs' / 1000) :=
  token_spec (by decide)

end

end Auth

end FitzDestroyer

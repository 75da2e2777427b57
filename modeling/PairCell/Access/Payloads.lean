import PairCell.Lib.JsonText
import PairCell.Lib.Timestamp

/-!
# What is signed

The texts that device keys and the certificate key sign, and the check of a
P-256 signature.  The `cryptography` package is given as a record of functions.
-/

namespace PairCell.Access

open Lib

variable {F : Type}

/-- A dictionary as JSON reads it; no key occurs twice in it or in its parts. -/
structure Dict (F : Type) where
  fields : List (String × Json F)
  distinct : (Json.obj fields).Distinct

def Dict.value (d : Dict F) : Json F := .obj d.fields

def Dict.empty : Dict F := ⟨[], List.nodup_nil, trivial⟩

/-- The same keys with the same values; the order of insertion plays no part. -/
def Dict.Same (d e : Dict F) : Prop := d.value.sorted = e.value.sorted

/-- How the signed texts are written: ASCII, sorted keys. -/
def signed (fmt : FloatText F) (fields : List (String × Json F)) : List Char :=
  dumps fmt ⟨true, true⟩ (.obj fields)

def enrollmentPayload (fmt : FloatText F) (login : Int) (server : String)
    (accountInfo terminalInfo : Dict F)
    (mt5Password enrollmentChallenge : String) : List Char :=
  signed fmt [("account_info", accountInfo.value), ("login", .int login),
    ("mt5_password", .str mt5Password), ("enrollment_challenge", .str enrollmentChallenge),
    ("server", .str server), ("terminal_info", terminalInfo.value)]

def deviceCertificatePayload (fmt : FloatText F) (workerId : String) (login : Int)
    (server publicKeyPem : String) (issuedAt expiresAt : Timestamp) : List Char :=
  signed fmt [("expires_at", .str (String.ofList expiresAt.isoformat)),
    ("issued_at", .str (String.ofList issuedAt.isoformat)), ("login", .int login),
    ("public_key_pem", .str publicKeyPem), ("server", .str server),
    ("worker_id", .str workerId)]

def workerProofPayload (fmt : FloatText F) (purpose workerId nonce : String) : List Char :=
  signed fmt [("nonce", .str nonce), ("purpose", .str purpose),
    ("worker_id", .str workerId)]

def workerRotationPayload (fmt : FloatText F)
    (workerId replacementPublicKeyPem nonce : String) :
    List Char :=
  signed fmt [("nonce", .str nonce), ("purpose", .str "worker_certificate_rotation"),
    ("replacement_public_key_pem", .str replacementPublicKeyPem),
    ("worker_id", .str workerId)]

/-! ## The check of a signature -/

/-- Public keys read from PEM, those on the curve P-256, signatures
in base64, and ECDSA. -/
structure Cryptography where
  Key : Type
  loadPublicKey : String → Option Key
  p256 : Key → Bool
  b64decode : String → Option (List UInt8)
  verify : Key → List UInt8 → List Char → Bool

/-- The text of the `ProofError`, if one is raised. -/
def verifyP256Signature (c : Cryptography) (publicKeyPem signature : String)
    (payload : List Char) (malformed invalid : String) : Except String Unit :=
  match c.loadPublicKey publicKeyPem, c.b64decode signature with
  | some key, some signature =>
      if c.p256 key = false then .error "The worker public key must use ECDSA P-256."
      else if c.verify key signature payload = false then .error invalid
      else .ok ()
  | _, _ => .error malformed

def verifyWorkerProof (c : Cryptography) (fmt : FloatText F)
    (publicKeyPem signature : String) (purpose workerId nonce : String) :
    Except String Unit :=
  verifyP256Signature c publicKeyPem signature
    (workerProofPayload fmt purpose workerId nonce)
    "The worker proof is malformed." "The worker proof signature is invalid."

def verifyEnrollmentProof (c : Cryptography) (fmt : FloatText F)
    (publicKeyPem signature : String) (login : Int) (server : String)
    (accountInfo terminalInfo : Dict F) (mt5Password enrollmentChallenge : String) :
    Except String Unit :=
  verifyP256Signature c publicKeyPem signature
    (enrollmentPayload fmt login server accountInfo terminalInfo mt5Password
      enrollmentChallenge)
    "The enrollment proof is malformed." "The enrollment proof signature is invalid."

def verifyWorkerRotationProof (c : Cryptography) (fmt : FloatText F)
    (publicKeyPem signature : String) (workerId replacementPublicKeyPem nonce : String) :
    Except String Unit :=
  verifyP256Signature c publicKeyPem signature
    (workerRotationPayload fmt workerId replacementPublicKeyPem nonce)
    "The Worker rotation proof is malformed."
      "The Worker rotation proof signature is invalid."

/-! ## A text tells what was signed -/

/-- What some key signs, with all that the signature speaks of. -/
inductive Payload (F : Type) where
  | enrollment (login : Int) (server : String) (accountInfo terminalInfo : Dict F)
      (mt5Password enrollmentChallenge : String)
  | deviceCertificate (workerId : String) (login : Int) (server publicKeyPem : String)
      (issuedAt expiresAt : Timestamp)
  | workerProof (purpose workerId nonce : String)
  | workerRotation (workerId replacementPublicKeyPem nonce : String)

namespace Payload

def text (fmt : FloatText F) : Payload F → List Char
  | .enrollment login server accountInfo terminalInfo mt5Password enrollmentChallenge =>
      enrollmentPayload fmt login server accountInfo terminalInfo mt5Password
        enrollmentChallenge
  | .deviceCertificate workerId login server publicKeyPem issuedAt expiresAt =>
      deviceCertificatePayload fmt workerId login server publicKeyPem issuedAt expiresAt
  | .workerProof purpose workerId nonce => workerProofPayload fmt purpose workerId nonce
  | .workerRotation workerId replacementPublicKeyPem nonce =>
      workerRotationPayload fmt workerId replacementPublicKeyPem nonce

/-- Of one kind and with the same values. -/
def Same : Payload F → Payload F → Prop
  | .enrollment login server account terminal password challenge,
      .enrollment login' server' account' terminal' password' challenge' =>
      login = login' ∧ server = server' ∧ account.Same account' ∧ terminal.Same terminal' ∧
        password = password' ∧ challenge = challenge'
  | .deviceCertificate workerId login server key issuedAt expiresAt,
      .deviceCertificate workerId' login' server' key' issuedAt' expiresAt' =>
      workerId = workerId' ∧ login = login' ∧ server = server' ∧ key = key' ∧
        issuedAt = issuedAt' ∧ expiresAt = expiresAt'
  | .workerProof purpose workerId nonce, .workerProof purpose' workerId' nonce' =>
      purpose = purpose' ∧ workerId = workerId' ∧ nonce = nonce'
  | .workerRotation workerId key nonce, .workerRotation workerId' key' nonce' =>
      workerId = workerId' ∧ key = key' ∧ nonce = nonce'
  | _, _ => False

def fields : Payload F → List (String × Json F)
  | .enrollment login server accountInfo terminalInfo mt5Password enrollmentChallenge =>
      [("account_info", accountInfo.value), ("login", .int login),
        ("mt5_password", .str mt5Password),
        ("enrollment_challenge", .str enrollmentChallenge), ("server", .str server),
        ("terminal_info", terminalInfo.value)]
  | .deviceCertificate workerId login server publicKeyPem issuedAt expiresAt =>
      [("expires_at", .str (String.ofList expiresAt.isoformat)),
        ("issued_at", .str (String.ofList issuedAt.isoformat)), ("login", .int login),
        ("public_key_pem", .str publicKeyPem), ("server", .str server),
        ("worker_id", .str workerId)]
  | .workerProof purpose workerId nonce =>
      [("nonce", .str nonce), ("purpose", .str purpose), ("worker_id", .str workerId)]
  | .workerRotation workerId replacementPublicKeyPem nonce =>
      [("nonce", .str nonce), ("purpose", .str "worker_certificate_rotation"),
        ("replacement_public_key_pem", .str replacementPublicKeyPem),
        ("worker_id", .str workerId)]

theorem text_eq (fmt : FloatText F) (p : Payload F) :
    p.text fmt = signed fmt p.fields := by
  cases p <;> rfl

theorem fields_distinct (p : Payload F) : (Json.obj p.fields).Distinct := by
  cases p with
  | enrollment login server accountInfo terminalInfo mt5Password enrollmentChallenge =>
      exact ⟨by simp [fields], accountInfo.distinct, trivial, trivial, trivial, trivial,
        terminalInfo.distinct, trivial⟩
  | deviceCertificate => exact ⟨by simp [fields], trivial, trivial, trivial, trivial,
      trivial, trivial, trivial⟩
  | workerProof => exact ⟨by simp [fields], trivial, trivial, trivial, trivial⟩
  | workerRotation => exact ⟨by simp [fields], trivial, trivial, trivial, trivial, trivial⟩

end Payload

theorem isoformat_inj {t u : Timestamp}
    (h : String.ofList t.isoformat = String.ofList u.isoformat) : t = u := by
  have htexts : t.isoformat = u.isoformat := by simpa using congrArg String.toList h
  have hread := Timestamp.read?_isoformat t
  rw [htexts, Timestamp.read?_isoformat] at hread
  exact (Option.some.inj hread).symm

/-- Two texts with sorted keys are equal only if the objects have the same
values at each key. -/
theorem signed_field {fmt : FloatText F} {fs gs : List (String × Json F)}
    (hf : (Json.obj fs).Distinct) (hg : (Json.obj gs).Distinct)
    (h : signed fmt fs = signed fmt gs) (k : String) : (Json.field? fs k).map Json.sorted =
    (Json.field? gs k).map Json.sorted := by
  have hsorted : (Json.obj fs).sorted = (Json.obj gs).sorted := by
    have hload : loads fmt (dumps fmt ⟨true, true⟩ (.obj fs)) =
        some (Json.obj fs).sorted :=
      loads_dumps ⟨true, true⟩ hf
    unfold signed at h
    rw [h, loads_dumps ⟨true, true⟩ hg] at hload
    exact (Option.some.inj hload).symm
  rw [Json.sorted_obj, Json.sorted_obj] at hsorted
  have hfields := congrArg (fun l => Json.field? l k) (Json.obj.inj hsorted)
  have keys : ∀ l : List (String × Json F), (Json.obj l).Distinct →
      ((l.map fun f => (f.1, f.2.sorted)).map Prod.fst).Nodup := by
    intro l hl
    simpa [Function.comp_def] using hl.1
  simp only [Json.field?_byKey (keys fs hf), Json.field?_byKey (keys gs hg)] at hfields
  rwa [Json.field?_map, Json.field?_map] at hfields

namespace Payload

/-- A field that both kinds have holds the same value in both. -/
private theorem fields_agree {fmt : FloatText F} {p q : Payload F}
    (h : signed fmt p.fields = signed fmt q.fields) (k : String) {v w : Json F}
    (hv : (k, v) ∈ p.fields) (hw : (k, w) ∈ q.fields) : v.sorted = w.sorted := by
  have hfield := signed_field p.fields_distinct q.fields_distinct h k
  rw [(Json.field?_eq_some p.fields_distinct.1).2 hv,
    (Json.field?_eq_some q.fields_distinct.1).2 hw] at hfield
  exact Option.some.inj hfield

/-- Texts are equal only when both have the key. -/
private theorem keys_agree {fmt : FloatText F} {p q : Payload F}
    (h : signed fmt p.fields = signed fmt q.fields) (k : String) :
    (Json.field? p.fields k).isSome = (Json.field? q.fields k).isSome := by
  simpa using congrArg Option.isSome (signed_field p.fields_distinct q.fields_distinct h k)

private theorem str_agree {a b : String}
    (h : (Json.str a : Json F).sorted = (Json.str b).sorted) :
    a = b := by
  simpa [Json.sorted] using h

private theorem int_agree {a b : Int}
    (h : (Json.int a : Json F).sorted = (Json.int b).sorted) :
    a = b := by
  simpa [Json.sorted] using h

/-- Whatever the values are, two signed texts are equal exactly when they are of one kind
and say the same: no signature made for one purpose, Worker or nonce passes for another. -/
theorem text_eq_iff_same (fmt : FloatText F) (p q : Payload F) :
    p.text fmt = q.text fmt ↔ p.Same q := by
  rw [text_eq, text_eq]
  constructor
  · intro h
    have hkeys := keys_agree h
    have hvalue := fun k v w => fields_agree (v := v) (w := w) h k
    cases p with
    | enrollment login server accountInfo terminalInfo mt5Password enrollmentChallenge =>
        cases q with
        | enrollment =>
            refine ⟨?_, ?_, ?_, ?_, ?_, ?_⟩
            · exact int_agree (hvalue "login" _ _ (by simp [fields]) (by simp [fields]))
            · exact str_agree (hvalue "server" _ _ (by simp [fields]) (by simp [fields]))
            · exact hvalue "account_info" _ _ (by simp [fields]) (by simp [fields])
            · exact hvalue "terminal_info" _ _ (by simp [fields]) (by simp [fields])
            · exact str_agree (hvalue "mt5_password" _ _ (by simp [fields])
                (by simp [fields]))
            · exact str_agree
                (hvalue "enrollment_challenge" _ _ (by simp [fields]) (by simp [fields]))
        | _ => simpa [fields, Json.field?] using hkeys "mt5_password"
    | deviceCertificate workerId login server publicKeyPem issuedAt expiresAt =>
        cases q with
        | deviceCertificate =>
            refine ⟨?_, ?_, ?_, ?_, ?_, ?_⟩
            · exact str_agree
                (hvalue "worker_id" _ _ (by simp [fields]) (by simp [fields]))
            · exact int_agree (hvalue "login" _ _ (by simp [fields]) (by simp [fields]))
            · exact str_agree (hvalue "server" _ _ (by simp [fields]) (by simp [fields]))
            · exact str_agree (hvalue "public_key_pem" _ _ (by simp [fields])
                (by simp [fields]))
            · exact isoformat_inj
                (str_agree (hvalue "issued_at" _ _ (by simp [fields]) (by simp [fields])))
            · exact isoformat_inj
                (str_agree (hvalue "expires_at" _ _ (by simp [fields]) (by simp [fields])))
        | _ => simpa [fields, Json.field?] using hkeys "expires_at"
    | workerProof purpose workerId nonce =>
        cases q with
        | workerProof =>
            refine ⟨?_, ?_, ?_⟩
            · exact str_agree (hvalue "purpose" _ _ (by simp [fields]) (by simp [fields]))
            · exact str_agree
                (hvalue "worker_id" _ _ (by simp [fields]) (by simp [fields]))
            · exact str_agree (hvalue "nonce" _ _ (by simp [fields]) (by simp [fields]))
        | workerRotation =>
            simpa [fields, Json.field?] using hkeys "replacement_public_key_pem"
        | _ => simpa [fields, Json.field?] using hkeys "nonce"
    | workerRotation workerId replacementPublicKeyPem nonce =>
        cases q with
        | workerRotation =>
            refine ⟨?_, ?_, ?_⟩
            · exact str_agree
                (hvalue "worker_id" _ _ (by simp [fields]) (by simp [fields]))
            · exact str_agree
                (hvalue "replacement_public_key_pem" _ _ (by simp [fields])
                  (by simp [fields]))
            · exact str_agree (hvalue "nonce" _ _ (by simp [fields]) (by simp [fields]))
        | _ => simpa [fields, Json.field?] using hkeys "replacement_public_key_pem"
  · intro h
    have hsorted : (p.fields.map fun f => (f.1, f.2.sorted)) =
        q.fields.map fun f => (f.1, f.2.sorted) := by
      cases p <;> cases q <;> simp only [Same, Dict.Same] at h <;> simp [fields, h]
    unfold signed dumps
    rw [if_pos rfl, if_pos rfl, Json.sorted_obj, Json.sorted_obj, hsorted]

end Payload

end PairCell.Access

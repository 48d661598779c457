import GofroRouter.Kdf.Scrypt
import GofroRouter.Agent.Model
import GofroRouter.Lib.Text

/-!
# Panel requests and the password record

What `auth.rs` reads from a request before it does anything, and the file with the administrator's
password.

* `cookie`, `preauth`: the checks of a request's header fields.
* `read_record`, `verify`, `record_text`: the password record. The file holds a salt and a key that
  scrypt derives; PBKDF2 is a parameter.
-/

namespace Gofro.Agent.Auth

open Text

def SESSION : String := "__Host-gofro-session"
def CSRF : String := "__Host-gofro-csrf"

/-! ## Header fields -/

/-- Names and values in order, names in lower case; a value outside visible ASCII has no text. -/
abbrev Headers := List (String × Option String)

/-- The parts of a request that the handlers read. -/
structure Head where
  authority : Option String
  headers : Headers

/-- The address and port at which the panel answers. -/
structure Panel where
  lan_address : Ipv4Addr
  https_port : ℕ

namespace Headers

/-- All values under a name; one that is no text is `none`. -/
def get_all (headers : Headers) (name : String) : List (Option String) :=
  (headers.filter (·.1 = name)).map Prod.snd

/-- The text of the first field of that name. -/
def get (headers : Headers) (name : String) : Option String := (headers.get_all name).head?.join

end Headers

/-- The time it takes is no part of the model. -/
def constant_time_eq (left right : String) : Bool := decide (left = right)

/-- The authority of the request line and the one `Host` field must agree. -/
def request_authority (head : Head) : Option String :=
  match head.headers.get_all "host" with
  | [] => head.authority
  | [some host] => if head.authority.any (· != host) then none else some host
  | _ => none

/-- The panel's names, with or without the port. -/
def allowed_https_authority (panel : Panel) (value : String) : Bool :=
  let address := String.ofList (Ipv4.Net.dotted panel.lan_address)
  let port := toString panel.https_port
  value = AP_DOMAIN || value = AP_DOMAIN ++ ":443" || value = AP_DOMAIN ++ ":8443" ||
    value = address ++ ":" ++ port || value = AP_DOMAIN ++ ":" ++ port

/-- The host that the request asks for. -/
def allowed_host (panel : Panel) (head : Head) : Bool :=
  (request_authority head).any (allowed_https_authority panel)

def strip_https (value : String) : Option String :=
  if "https://".toList <+: value.toList then some (String.ofList (value.toList.drop 8)) else none

/-- The page that sends the request. -/
def allowed_origin (panel : Panel) (headers : Headers) : Bool :=
  ((headers.get "origin").bind strip_https).any (allowed_https_authority panel)

/-- One `name=value` of a `Cookie` field. -/
def cookie_part (part : List Char) : Option (String × String) := do
  let (key, value) ← split_once '=' (trim (String.ofList part)).toList
  return (String.ofList key, String.ofList value)

/-- The cookie of that name if there is exactly one and every part of the fields can be read. -/
def cookie (headers : Headers) (name : String) : Option String := do
  let fields ← (headers.get_all "cookie").mapM fun value => do (split ';' (← value)).mapM cookie_part
  match fields.flatten.filter (·.1 = name) with
  | [(_, value)] => some value
  | _ => none

/-- The request comes from the panel's own page and repeats the CSRF cookie in a header. -/
def preauth (panel : Panel) (head : Head) : Bool :=
  allowed_host panel head && allowed_origin panel head.headers &&
    match cookie head.headers CSRF, head.headers.get "x-csrf-token" with
    | some a, some b => constant_time_eq a b
    | _, _ => false

/-! ## Passwords -/

/-- The limit is in bytes. -/
def password_too_long (password : String) : Bool := 128 < len password

/-- The checks of a new password; the shortest one has 8 characters. -/
def setup_password_error (password : String) : Option String :=
  if password.toList.length < 8 then some "password_too_short"
  else if password_too_long password then some "password_too_long"
  else none

/-- Any line of the file will do. -/
def setup_code_matches (input codes : String) : Bool :=
  (lines codes).any fun code => constant_time_eq input (String.ofList code)

/-- The password file: its permission bits and its text. -/
structure Credential where
  mode : ℕ
  text : String
deriving DecidableEq

/-- A salt and the key derived with it. -/
structure Record where
  salt : List UInt8
  hash : List UInt8
deriving DecidableEq

def hex_byte (byte : UInt8) : List Char :=
  [Nat.digitChar (byte.toNat / 16), Nat.digitChar (byte.toNat % 16)]

def hex (bytes : List UInt8) : String := String.ofList (bytes.flatMap hex_byte)

/-- Digits in pairs. -/
def unhex_chars : List Char → Option (List UInt8)
  | [] => some []
  | [_] => none
  | a :: b :: rest => do
    let byte ← parse_unsigned 16 255 [a, b]
    return UInt8.ofNat byte :: (← unhex_chars rest)

def unhex (value : String) : Option (List UInt8) :=
  if value.toList.all (·.toNat < 128) then unhex_chars value.toList else none

/-- The saved password record: six fields between dollar signs, in a file that nobody else may read.
-/
def read_record (file : Option Credential) : Option Record := do
  let credential ← file
  guard (credential.mode &&& 0o077 = 0 ∧ len credential.text ≤ 512)
  let [version, n, r, p, salt, hash] := (split '$' credential.text).map String.ofList | none
  guard (version = "gofro-scrypt-v1" ∧ n = "16384" ∧ r = "8" ∧ p = "1")
  let salt ← unhex salt
  let hash ← unhex hash
  guard (salt.length = 32 ∧ hash.length = 32)
  return ⟨salt, hash⟩

/-- The content of the password file. -/
def record_text (record : Record) : String :=
  String.intercalate "$" ["gofro-scrypt-v1", "16384", "8", "1", hex record.salt, hex record.hash]

section

variable (pbkdf2_hmac : List UInt8 → List UInt8 → ℕ → (len : ℕ) → Except String (Vector UInt8 len))

/-- The key of a password. -/
def derive (password : String) (salt : List UInt8) : Except String (List UInt8) :=
  (Kdf.scrypt pbkdf2_hmac password.toUTF8.toList salt 32).map Vector.toList

/-- The hash of the password is compared with the one of the record. -/
def verify (record : Record) (password : String) : Except String Bool := do
  return decide ((← derive pbkdf2_hmac password record.salt) = record.hash)

/-- The verdict of `login`: a record that cannot be read or a key that cannot be derived is a wrong
password. -/
def login_valid (record : Option Record) (password : String) : Bool :=
  match record with
  | some record => (verify pbkdf2_hmac record password).toOption.getD false
  | none => false

/-- The verdict of `change_password_record`. -/
def current_valid (record : Record) (current_password : String) : Except String Bool :=
  if password_too_long current_password then .ok false
  else verify pbkdf2_hmac record current_password

/-- The file that `write_record` puts in place. -/
def new_record (password : String) (salt : List UInt8) : Except String Credential := do
  return ⟨0o600, record_text ⟨salt, ← derive pbkdf2_hmac password salt⟩⟩

end

end Gofro.Agent.Auth

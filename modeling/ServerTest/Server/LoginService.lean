import ServerTest.Core.SHA256
import ServerTest.Core.StringUtils

/-!
# The login service

`LoginService.cpp`: the handler of `POST` requests, and the hash it would compare passwords with.

The handler works on a `soap` context of gSOAP, one for each connection. What it uses of gSOAP is
modelled here as far as it goes: `soap_http_body`, with or without chunks, the chain of response
functions a plugin can put itself into, and `soap_response` with `SOAP_FILE`. Google's JSON library is
a parameter, `JsonUtil`.

`Protobuf::JsonToMessage` is true when the text was decoded. `HandlePost` takes it the other way: it
was written for a deserializer that is gone, whose call is still there in a comment and negated.
-/

set_option autoImplicit false

namespace ServerTest.Server

open Lib ServerTest.Core

/-! ## Messages -/

/-- `Battlenet.JSON.Login.FormInputValue` -/
structure FormInputValue where
  inputId : Bytes
  value : Bytes
  deriving DecidableEq, Repr

/-- `LoginForm`, of which only the inputs are looked at. -/
structure LoginForm where
  inputs : List FormInputValue
  deriving DecidableEq, Repr

inductive AuthenticationState where
  | LOGIN
  | LEGAL
  | AUTHENTICATOR
  | DONE
  deriving DecidableEq, Repr

structure LoginResult where
  authenticationState : AuthenticationState
  errorCode : Bytes
  errorMessage : Bytes
  url : Bytes
  loginTicket : Bytes
  deriving DecidableEq, Repr

/-- A new message, with the defaults of proto3. -/
def LoginResult.new : LoginResult := ⟨.LOGIN, [], [], [], []⟩

/-- `google::protobuf::util`: whether the status was OK, and what the output holds afterwards. A text
that could not be decoded may leave something behind. -/
structure JsonUtil where
  jsonStringToMessage : Bytes → Bool × LoginForm
  messageToJsonString : LoginResult → Bool × Bytes

/-- `Protobuf::JsonToMessage` -/
def jsonToMessage (util : JsonUtil) (text : Bytes) : Bool × LoginForm := util.jsonStringToMessage text

/-- `Protobuf::MessageToJson` -/
def messageToJson (util : JsonUtil) (message : LoginResult) : Bool × Bytes :=
  util.messageToJsonString message

/-! ## gSOAP -/

/-- What `soap->fresponse` points to. -/
inductive ResponseFunction where
  | httpResponse
  | changeResponse
  deriving DecidableEq, Repr

/-- The data of a registered `ResponseCodePlugin`. -/
structure ResponseCodePlugin where
  fresponse : ResponseFunction
  errorCode : Int
  deriving DecidableEq, Repr

/-- An HTTP response: its status, the message in it and that message as text. -/
structure Answer where
  status : Int
  message : LoginResult
  body : Bytes
  deriving DecidableEq, Repr

/-- A request: its path and its body, however that is transferred. -/
structure Request where
  path : Bytes
  body : Bytes
  deriving DecidableEq, Repr

/-- The context of one connection. `plugins` are the ones with the id of `ResponseCodePlugin`, the
last registered first. -/
structure Soap where
  request : Request
  fresponse : ResponseFunction
  plugins : List ResponseCodePlugin
  answer : Option Answer
  deriving DecidableEq, Repr

/-- A context as `Run` copies it for a connection. -/
def Soap.accept (request : Request) : Soap := ⟨request, .httpResponse, [], none⟩

/-- What the allocator and the network do during one request. -/
structure SoapOutcomes where
  /-- what `soap_http_body` leaves behind the body in `*buf`, unless that is null -/
  bodyEnd : Option UInt8
  /-- `soap_register_plugin_arg` has its memory -/
  registers : Bool
  /-- what `soap_end_send` returns -/
  endSend : Int

def soapFile : Int := 1003

namespace Soap

/-- `soap_http_body`: what `*buf` is afterwards. It is null for a body of no bytes, without memory, and
when the connection ends too early. A body with a length gets a NUL, and one in chunks the byte that
happens to be next in `labbuf`. -/
def httpBody (o : SoapOutcomes) (soap : Soap) : Option Bytes :=
  o.bodyEnd.map fun last => soap.request.body ++ [last]

/-- `soap_register_plugin_arg` with `ResponseCodePlugin::Init`. -/
def registerPlugin (o : SoapOutcomes) (soap : Soap) : Option Soap :=
  if o.registers then
    some { soap with
      plugins := ⟨soap.fresponse, 0⟩ :: soap.plugins
      fresponse := .changeResponse }
  else none

/-- `ResponseCode->ErrorCode = code` for the plugin `soap_lookup_plugin` finds. -/
def setErrorCode (soap : Soap) (code : Int) : Except Fault Soap :=
  match soap.plugins with
  | [] => .error .nullPointer
  | self :: rest => .ok { soap with plugins := { self with errorCode := code } :: rest }

/-- The status a call of `soap->fresponse` ends up sending. `ChangeResponse` looks its plugin up by id
and goes on to the function saved there; had two been registered, that would be itself. -/
def responseStatus (soap : Soap) (status : Int) : Except Fault Int :=
  match soap.fresponse with
  | .httpResponse => .ok status
  | .changeResponse =>
    match soap.plugins with
    | [] => .error .nullPointer
    | self :: _ =>
      let status := if self.errorCode ≠ 0 ∧ status = soapFile then self.errorCode else status
      match self.fresponse with
      | .httpResponse => .ok status
      | .changeResponse => .error .stackOverflow

end Soap

/-- `LoginService::SendResponse`, which ignores whether the message became text. -/
def sendResponse (util : JsonUtil) (o : SoapOutcomes) (soap : Soap) (response : LoginResult) :
    Except Fault (Int × Soap) := do
  let (_, json) := messageToJson util response
  let status ← soap.responseStatus soapFile
  return (o.endSend, { soap with answer := some ⟨status, response, json⟩ })

/-! ## `HandlePost` -/

def expectedPath : Bytes := ascii "/bnetserver/login/"

/-- `std::string(char const*)` -/
def stringOf : Option Bytes → Except Fault Bytes
  | none => .error .nullPointer
  | some memory => if 0 ∈ memory then .ok (cStr memory) else .error .outOfBounds

/-- The loop over the inputs: `Login` and `Password` afterwards. -/
def credentials (inputs : List FormInputValue) : Bytes × Bytes :=
  inputs.foldl (fun found input =>
    if input.inputId = ascii "account_name" then (input.value, found.2)
    else if input.inputId = ascii "password" then (found.1, input.value)
    else found) ([], [])

def utf8ToUpperLatin (input : Bytes) : Bytes := input.map toupper

/-- What a call of `HandlePost` comes to: what it returns, the context, and the credentials if it got as
far as extracting any. -/
structure PostResult where
  returned : Int
  soap : Soap
  credentials : Option (Bytes × Bytes)
  deriving DecidableEq, Repr

/-- What a request that cannot be decoded is answered with. -/
def undecodable : LoginResult :=
  { LoginResult.new with
    authenticationState := .LOGIN
    errorCode := ascii "UNABLE_TO_DECODE"
    errorMessage := ascii ("There was an internal error while connecting to Battle.net. " ++
      "Please try again later.") }

/-- `HandlePost` from the call of `JsonToMessage` on. -/
def handleBody (util : JsonUtil) (o : SoapOutcomes) (soap : Soap) (text : Bytes) :
    Except Fault PostResult := do
  let (decoded, form) := jsonToMessage util text
  if decoded then
    match soap.registerPlugin o with
    | none => return ⟨500, soap, none⟩
    | some soap =>
      let soap ← soap.setErrorCode 400
      let (returned, soap) ← sendResponse util o soap undecodable
      return ⟨returned, soap, none⟩
  else
    let (login, password) := credentials form.inputs
    return ⟨0, soap, some (utf8ToUpperLatin login, utf8ToUpperLatin password)⟩

def handlePost (util : JsonUtil) (o : SoapOutcomes) (soap : Soap) : Except Fault PostResult := do
  -- `strstr(path, expectedPath) != &path[0]`
  if !expectedPath.isPrefixOf (cStr soap.request.path) then return ⟨404, soap, none⟩
  let text ← stringOf (soap.httpBody o)
  handleBody util o soap text

/-- Answered with 400 and the error code for an undecodable request. -/
def PostResult.Rejected (r : PostResult) : Prop :=
  ∃ answer, r.soap.answer = some answer ∧ answer.status = 400 ∧
    answer.message.errorCode = ascii "UNABLE_TO_DECODE"

/-- What the handler is for, of one request: it is rejected if its body is not a login form, and its
credentials are extracted if it is. `valid` says which texts are. -/
structure RejectsUndecodable (util : JsonUtil) (valid : Bytes → Prop) (o : SoapOutcomes)
    (request : Request) : Prop where
  rejects : (∃ r, handlePost util o (.accept request) = .ok r ∧ r.Rejected) ↔
    ¬ valid (cStr request.body)
  continues : (∃ r, handlePost util o (.accept request) = .ok r ∧ r.credentials.isSome) ↔
    valid (cStr request.body)

variable {util : JsonUtil} {o : SoapOutcomes} {request : Request}

/-- The text handed to the decoder is the body up to its first NUL, or there is none: the buffer is
null, or has no end. -/
theorem stringOf_httpBody (o : SoapOutcomes) (request : Request) :
    (∃ fault, stringOf ((Soap.accept request).httpBody o) = .error fault) ∨
      stringOf ((Soap.accept request).httpBody o) = .ok (cStr request.body) := by
  cases hlast : o.bodyEnd with
  | none => exact Or.inl ⟨.nullPointer, by simp [Soap.httpBody, hlast, stringOf]⟩
  | some last =>
    have hbuffer : (Soap.accept request).httpBody o = some (request.body ++ [last]) := by
      simp [Soap.httpBody, Soap.accept, hlast]
    rw [hbuffer]
    by_cases hend : (0 : UInt8) ∈ request.body ++ [last]
    · refine Or.inr ((if_pos hend).trans (congrArg Except.ok ?_))
      rcases List.mem_append.mp hend with hbody | hmem
      · exact cStr_append_of_mem hbody [last]
      · rw [← List.mem_singleton.mp hmem, cStr_append_zero]
    · exact Or.inl ⟨.outOfBounds, if_neg hend⟩

/-- A text that was decoded is rejected. -/
theorem handleBody_decoded {util : JsonUtil} {o : SoapOutcomes} (request : Request) {text : Bytes}
    (hregisters : o.registers = true) (hdecoded : (util.jsonStringToMessage text).1 = true) :
    ∃ r, handleBody util o (.accept request) text = .ok r ∧ r.Rejected := by
  let plugin : ResponseCodePlugin := ⟨.httpResponse, 400⟩
  let answer : Answer := ⟨400, undecodable, (util.messageToJsonString undecodable).2⟩
  refine ⟨⟨o.endSend, ⟨request, .changeResponse, [plugin], some answer⟩, none⟩, ?_,
    ⟨answer, rfl, rfl, rfl⟩⟩
  simp [handleBody, jsonToMessage, hdecoded, Soap.registerPlugin, hregisters, Soap.setErrorCode,
    sendResponse, messageToJson, Soap.responseStatus, Soap.accept, plugin, answer, bind,
    Except.bind, pure, Except.pure]

/-- A text that was not is searched for credentials. -/
theorem handleBody_undecoded {util : JsonUtil} (o : SoapOutcomes) (request : Request) {text : Bytes}
    (hdecoded : (util.jsonStringToMessage text).1 = false) :
    ∃ r, handleBody util o (.accept request) text = .ok r ∧ r.credentials.isSome := by
  let found := credentials (util.jsonStringToMessage text).2.inputs
  refine ⟨⟨0, .accept request, some (utf8ToUpperLatin found.1, utf8ToUpperLatin found.2)⟩, ?_, rfl⟩
  simp [handleBody, jsonToMessage, hdecoded, found, pure, Except.pure]

theorem handlePost_eq (util : JsonUtil) (o : SoapOutcomes) {request : Request}
    (hpath : expectedPath.isPrefixOf (cStr request.path) = true) :
    handlePost util o (.accept request) =
      stringOf ((Soap.accept request).httpBody o) >>= handleBody util o (.accept request) := by
  have hguard : (!expectedPath.isPrefixOf (cStr (Soap.accept request).request.path)) = false := by
    rw [show (Soap.accept request).request = request from rfl, hpath]
    rfl
  rw [handlePost, hguard]
  rfl

/-- **The handler has it the wrong way round, on every request**: whatever is decodable, and whatever
else happens while the request is read, the body is rejected if it is a login form, searched for
credentials if it is not, and read through a null pointer if it is empty. -/
theorem never_rejectsUndecodable (util : JsonUtil) (valid : Bytes → Prop) (o : SoapOutcomes)
    (request : Request)
    (hjson : ∀ text, (util.jsonStringToMessage text).1 = true ↔ valid text)
    (hpath : expectedPath.isPrefixOf (cStr request.path) = true) (hregisters : o.registers = true) :
    ¬ RejectsUndecodable util valid o request := by
  rintro ⟨hrejects, hcontinues⟩
  rw [handlePost_eq util o hpath] at hrejects hcontinues
  rcases stringOf_httpBody o request with ⟨fault, htext⟩ | htext
  · -- It should have been one or the other.
    rw [htext] at hrejects hcontinues
    by_cases hvalid : valid (cStr request.body)
    · obtain ⟨r, hr, -⟩ := hcontinues.mpr hvalid
      cases hr
    · obtain ⟨r, hr, -⟩ := hrejects.mpr hvalid
      cases hr
  · rw [htext] at hrejects hcontinues
    cases hdecoded : (util.jsonStringToMessage (cStr request.body)).1 with
    | true =>
      obtain ⟨r, hr, hrejected⟩ := handleBody_decoded request hregisters hdecoded
      exact hrejects.mp ⟨r, hr, hrejected⟩ ((hjson _).mp hdecoded)
    | false =>
      obtain ⟨r, hr, hsome⟩ := handleBody_undecoded o request hdecoded
      have hvalid := hcontinues.mp ⟨r, hr, hsome⟩
      rw [← hjson, hdecoded] at hvalid
      cases hvalid

/-- A decoder that knows one form, the empty one. -/
def emptyFormOnly : JsonUtil where
  jsonStringToMessage text := (decide (text = ascii "\x7b\x7d"), ⟨[]⟩)
  messageToJsonString _ := (true, ascii "\x7b\x7d")

/-- The empty form, sent to the expected path. -/
def emptyFormRequest : Request := ⟨expectedPath, ascii "\x7b\x7d"⟩

theorem never_rejectsUndecodable_empty_form :
    ¬ RejectsUndecodable emptyFormOnly (· = ascii "\x7b\x7d") ⟨some 0, true, 0⟩ emptyFormRequest := by
  refine never_rejectsUndecodable _ _ _ _ (fun text => ?_) (by decide) rfl
  simp [emptyFormOnly]

/-- A valid form is answered with 400. -/
theorem not_rejectsUndecodable_empty_form :
    ¬ ∀ (util : JsonUtil) (valid : Bytes → Prop) (o : SoapOutcomes) (request : Request),
      (∀ text, (util.jsonStringToMessage text).1 = true ↔ valid text) →
      expectedPath.isPrefixOf (cStr request.path) = true → o.registers = true →
      RejectsUndecodable util valid o request := by
  intro h
  have hempty := h emptyFormOnly (· = ascii "\x7b\x7d") ⟨some 0, true, 0⟩ emptyFormRequest
    (fun text => by simp [emptyFormOnly]) (by decide) rfl
  have hrejected : ∃ r, handlePost emptyFormOnly ⟨some 0, true, 0⟩ (.accept emptyFormRequest) = .ok r ∧
      r.Rejected := ⟨_, rfl, _, rfl, rfl, rfl⟩
  exact hempty.rejects.mp hrejected (by decide)

/-! ## The password hash -/

/-- `LoginService::CalculateShaPassHash` -/
def calculateShaPassHash (sha256 : Bytes → Digest) (name password : Bytes) : Except Fault Bytes := do
  let email ← SHA256Hash.new.appendData name
  let email := email.calculateHash sha256
  let emailHex ← byteArrayToHexStr email.digest.val SHA256Hash.getLength false
  let sha ← SHA256Hash.new.appendData emailHex
  let sha ← sha.appendData (ascii ":")
  let sha ← sha.appendData password
  let sha := sha.calculateHash sha256
  byteArrayToHexStr sha.digest.val SHA256Hash.getLength true

/-- What the outer hash is taken of. -/
def innerMessage (sha256 : Bytes → Digest) (name password : Bytes) : Bytes :=
  hexText (sha256 name).val ++ ascii ":" ++ password

/-- How a digest is written: in upper-case hexadecimal, the last byte first. -/
def reversedHex (digest : Digest) : Bytes := hexText digest.val.reverse

theorem reversedHex_injective : Function.Injective reversedHex := by
  intro d d' h
  have hreverse : d.val.reverse = d'.val.reverse := hexText_injective h
  exact Subtype.ext (List.reverse_inj.mp hreverse)

/-- A digest as text, in either direction. -/
theorem byteArrayToHexStr_digest (digest : Digest) (reverse : Bool) :
    byteArrayToHexStr digest.val SHA256Hash.getLength reverse =
      .ok (hexText (if reverse then digest.val.reverse else digest.val)) := by
  have hlen := digest.property
  have heq := byteArrayToHexStr_eq digest.val (by omega) reverse
  rwa [hlen] at heq

theorem calculateShaPassHash_eq (sha256 : Bytes → Digest) {name password : Bytes}
    (hname : name.length < 2 ^ 31) (hpassword : password.length < 2 ^ 31) :
    calculateShaPassHash sha256 name password =
      .ok (reversedHex (sha256 (innerMessage sha256 name password))) := by
  have hhex : (hexText (sha256 name).val).length < 2 ^ 31 := by
    rw [length_hexText, (sha256 name).property]
    decide
  have hcolon : (ascii ":").length < 2 ^ 31 := by decide
  refine bind_returns.mpr ⟨_, SHA256Hash.appendData_eq _ hname, ?_⟩
  refine bind_returns.mpr ⟨_, byteArrayToHexStr_digest (sha256 name) false, ?_⟩
  refine bind_returns.mpr ⟨_, SHA256Hash.appendData_eq _ hhex, ?_⟩
  refine bind_returns.mpr ⟨_, SHA256Hash.appendData_eq _ hcolon, ?_⟩
  refine bind_returns.mpr ⟨_, SHA256Hash.appendData_eq _ hpassword, ?_⟩
  exact byteArrayToHexStr_digest (sha256 (innerMessage sha256 name password)) true

/-- The first hash is always 64 characters long, so the separator is found whatever stands around
it. -/
theorem innerMessage_inj {sha256 : Bytes → Digest} {n₁ p₁ n₂ p₂ : Bytes}
    (h : innerMessage sha256 n₁ p₁ = innerMessage sha256 n₂ p₂) :
    sha256 n₁ = sha256 n₂ ∧ p₁ = p₂ := by
  have hlen : (hexText (sha256 n₁).val).length = (hexText (sha256 n₂).val).length := by
    rw [length_hexText, length_hexText, (sha256 n₁).property, (sha256 n₂).property]
  unfold innerMessage at h
  rw [List.append_assoc, List.append_assoc] at h
  obtain ⟨hhex, hrest⟩ := List.append_inj h hlen
  exact ⟨Subtype.ext (hexText_injective hhex), List.append_cancel_left hrest⟩

/-- **The password hash tells names and passwords apart.** With any function in the place of SHA-256,
two calls give the same text only for the same name and the same password, or where that function has
a collision: on the names, or on the messages the outer hash is taken of. The text is the outer digest
in hexadecimal, last byte first, which determines the digest. -/
theorem shaPassHash_separates (sha256 : Bytes → Digest) (n₁ p₁ n₂ p₂ : Bytes)
    (hn₁ : n₁.length < 2 ^ 31) (hp₁ : p₁.length < 2 ^ 31) (hn₂ : n₂.length < 2 ^ 31)
    (hp₂ : p₂.length < 2 ^ 31) :
    (calculateShaPassHash sha256 n₁ p₁ = calculateShaPassHash sha256 n₂ p₂ →
      (n₁ = n₂ ∧ p₁ = p₂) ∨ (n₁ ≠ n₂ ∧ sha256 n₁ = sha256 n₂) ∨
      (innerMessage sha256 n₁ p₁ ≠ innerMessage sha256 n₂ p₂ ∧
        sha256 (innerMessage sha256 n₁ p₁) = sha256 (innerMessage sha256 n₂ p₂))) ∧
    calculateShaPassHash sha256 n₁ p₁ =
      .ok (reversedHex (sha256 (innerMessage sha256 n₁ p₁))) ∧
    Function.Injective reversedHex := by
  refine ⟨fun heq => ?_, calculateShaPassHash_eq sha256 hn₁ hp₁, reversedHex_injective⟩
  rw [calculateShaPassHash_eq sha256 hn₁ hp₁, calculateShaPassHash_eq sha256 hn₂ hp₂] at heq
  have houter : sha256 (innerMessage sha256 n₁ p₁) = sha256 (innerMessage sha256 n₂ p₂) :=
    reversedHex_injective (Except.ok.inj heq)
  by_cases hinner : innerMessage sha256 n₁ p₁ = innerMessage sha256 n₂ p₂
  · obtain ⟨hnames, hpasswords⟩ := innerMessage_inj hinner
    by_cases hname : n₁ = n₂
    · exact Or.inl ⟨hname, hpasswords⟩
    · exact Or.inr (Or.inl ⟨hname, hnames⟩)
  · exact Or.inr (Or.inr ⟨hinner, houter⟩)

/-- A function that hashes a string to its length. -/
def lengthHash (message : Bytes) : Digest :=
  ⟨UInt8.ofNat message.length :: List.replicate 31 0, by simp⟩

/-- The names `A` and `B` collide under it, and so their hashes with one password are the same. -/
theorem shaPassHash_separates_lengthHash :
    calculateShaPassHash lengthHash (ascii "A") (ascii "pw") =
      calculateShaPassHash lengthHash (ascii "B") (ascii "pw") ∧
    (ascii "A" ≠ ascii "B" ∧ lengthHash (ascii "A") = lengthHash (ascii "B")) ∧
    calculateShaPassHash lengthHash (ascii "A") (ascii "pw") =
      .ok (reversedHex (lengthHash (innerMessage lengthHash (ascii "A") (ascii "pw")))) := by
  obtain ⟨hseparates, hvalue, -⟩ := shaPassHash_separates lengthHash (ascii "A") (ascii "pw")
    (ascii "B") (ascii "pw") (by decide) (by decide) (by decide) (by decide)
  have hinner : innerMessage lengthHash (ascii "A") (ascii "pw") =
      innerMessage lengthHash (ascii "B") (ascii "pw") := by
    unfold innerMessage
    rw [show lengthHash (ascii "A") = lengthHash (ascii "B") by decide]
  have hsame : calculateShaPassHash lengthHash (ascii "A") (ascii "pw") =
      calculateShaPassHash lengthHash (ascii "B") (ascii "pw") := by
    rw [calculateShaPassHash_eq _ (by decide) (by decide),
      calculateShaPassHash_eq _ (by decide) (by decide), hinner]
  refine ⟨hsame, ?_, hvalue⟩
  rcases hseparates hsame with ⟨hname, -⟩ | hcollision | ⟨hne, -⟩
  · exact absurd hname (by decide)
  · exact hcollision
  · exact absurd hinner hne

end ServerTest.Server

import Spice.Lib.Run
import Spice.Lib.Bytes

namespace Spice
namespace Link

open Lib

/-!
# Linking a channel

A client that connects sends a link header, a link message with its capabilities, and what
the authentication asks for.  Every part is read asynchronously: a read names the number of
bytes it waits for and the function that is called with them.  The events here are single
bytes and the end of the connection, so every sequence of bytes is one of events.

OpenSSL and SASL are oracles, and so is the memory behind the link message.  A failed
assertion has no result.
-/

/-- `sizeof(SpiceLinkHeader)`, `sizeof(SpiceLinkMess)` and `SPICE_TICKET_KEY_PAIR_LENGTH / 8`. -/
def linkHeaderSize : Nat := 16

def linkMessSize : Nat := 18

def ticketSize : Nat := 128

def saslDataMaxLen : Nat := 1024 * 1024

def channelMain : Nat := 1

/-- `SPICE_COMMON_CAP_PROTOCOL_AUTH_SELECTION`, `SPICE_COMMON_CAP_AUTH_SPICE` and `SPICE_COMMON_CAP_AUTH_SASL`. -/
def capAuthSelection : Nat := 0

def capAuthSpice : Nat := 1

def capAuthSasl : Nat := 2

/-- `SPICE_CHANNEL_SECURITY_NONE` and `SPICE_CHANNEL_SECURITY_SSL`, as bits. -/
def securityNone : Nat := 0

def securitySsl : Nat := 1

/-- The replies of `SpiceLinkErr`. -/
inductive LinkErr
  | ok
  | invalidMagic
  | invalidData
  | versionMismatch
  | needSecured
  | needUnsecured
  | permissionDenied
  | badConnectionId
  | channelNotAvailable
deriving DecidableEq, Repr

/-! ## The server and the oracles -/

/-- The configuration.  `channels` are the types and ids of the registered channels, and `clients` the connection ids of
the connected clients. -/
structure Server where
  haveSasl : Bool
  saslEnabled : Bool
  ticketingEnabled : Bool
  password : List UInt8
  expirationTime : Int
  channelsSecurity : List (Nat × Nat)
  defaultSecurity : Nat
  channels : List (Nat × Nat)
  clients : List Nat

/-- What `sasl_server_start` and `sasl_server_step` return. -/
inductive SaslCode
  | ok
  | more
  | failed
deriving DecidableEq, Repr

/-- An answer of SASL, with the strength of the layer that was negotiated. -/
structure SaslAnswer where
  code : SaslCode
  serverOutLen : Nat
  ssf : Option Nat
deriving DecidableEq, Repr

/-- What OpenSSL, SASL, the clock and the memory say.  `mechlist` is missing if SASL could not be started. -/
structure Oracles where
  keyGenerated : Bool
  ackWritten : Bool
  decrypt : List UInt8 -> Option (List UInt8)
  ltime : Int
  mechlist : Option (List UInt8)
  saslAnswer : List (Option (List UInt8)) -> SaslAnswer
  behindMess : Nat -> UInt8
  aroundMechlist : Int -> UInt8

/-! ## The link -/

/-- The function that is called when the awaited bytes are there; `ended` if no bytes are awaited. -/
inductive Wait
  | readHeaderDone
  | readLinkDone
  | authMechanism
  | ticket
  | authMechlen
  | authMechname
  | authStartlen
  | authSaslStart
  | authSaslSteplen
  | authSaslStep
  | ended
deriving DecidableEq, Repr

/-- Why `reds_handle_link` was called: after these exchanges with SASL, or with this encrypted ticket. -/
inductive Evidence
  | sasl (exchanged : List (Option (List UInt8)))
  | ticket (encrypted : List UInt8)
deriving DecidableEq, Repr

/-- `RedLinkInfo`, with its stream.  `linkMess` are the bytes of the link message, `hasKey` says whether there is an RSA
key, and `reads` are the capability words that were read: where they start in the link message, and how many. -/
structure RedLinkInfo where
  skipAuth : Bool
  isSsl : Bool
  wait : Wait
  awaited : Nat
  received : List UInt8
  linkMess : List UInt8
  hasKey : Bool
  mechlist : List UInt8
  exchanged : List (Option (List UInt8))
  reads : List (Nat × Nat)
  replies : List LinkErr
  linked : Option Evidence
  frees : Nat
deriving DecidableEq

/-- A string ends at its first zero. -/
def cString (bytes : List UInt8) : List UInt8 := bytes.takeWhile (fun byte => byte ≠ 0)

namespace RedLinkInfo

variable (server : Server) (oracles : Oracles) (link : RedLinkInfo)

def field (offset width : Nat) : Nat := littleEndian ((link.linkMess.drop offset).take width)

def connectionId : Nat := link.field 0 4

def channelType : Nat := link.field 4 1

def channelId : Nat := link.field 5 1

def numCommonCaps : Nat := link.field 6 4

def numChannelCaps : Nat := link.field 10 4

def capsOffset : Nat := link.field 14 4

/-- The sum of the counts, in 32 bits. -/
def numCaps : Nat := (link.numCommonCaps + link.numChannelCaps) % 2 ^ 32

/-- `reds_send_link_error` and `reds_send_link_result`. -/
def reply (err : LinkErr) : RedLinkInfo := { link with replies := link.replies ++ [err] }

def free : RedLinkInfo := { link with wait := .ended, frees := link.frees + 1 }

/-- No bytes are awaited, and the link is not freed. -/
def abandon : RedLinkInfo := { link with wait := .ended }

/-- `reds_stream_async_read`; it asserts that something is to be read. -/
def asyncRead (size : Nat) (wait : Wait) : Option RedLinkInfo :=
  if size = 0 then none else some { link with wait := wait, awaited := size, received := [] }

def readWords (start count : Nat) : RedLinkInfo :=
  { link with reads := if count = 0 then link.reads else link.reads ++ [(start, count)] }

/-! ## Capabilities and security -/

/-- A byte of the link message, or of the memory behind it. -/
def byteAt (index : Nat) : UInt8 := link.linkMess.getD index (oracles.behindMess index)

/-- `red_link_info_test_capability`: the answer. -/
def testCapability (cap : Nat) : Bool :=
  if link.numCommonCaps < cap / 32 + 1 then false
  else
    let start := link.capsOffset + 4 * (cap / 32)
    (littleEndian ((List.range 4).map (fun index => link.byteAt oracles (start + index)))).testBit (cap % 32)

/-- `red_link_info_test_capability`: the word it reads. -/
def testWord (cap : Nat) : RedLinkInfo :=
  link.readWords (link.capsOffset + 4 * (cap / 32)) (if link.numCommonCaps < cap / 32 + 1 then 0 else 1)

def securityCheck : Bool :=
  let security := ((server.channelsSecurity.find? (fun option => option.1 = link.channelType)).map Prod.snd).getD
    server.defaultSecurity
  (link.isSsl && security.testBit securitySsl) || (!link.isSsl && security.testBit securityNone)

/-- `reds_find_channel` finds the channel. -/
def knownChannel : Bool := server.channels.contains (link.channelType, link.channelId)

def withoutKey : Bool := server.saslEnabled && link.testCapability oracles capAuthSasl

/-- `reds_send_link_ack`, with what it returns. -/
def sendLinkAck : Option (RedLinkInfo × Bool) :=
  if link.knownChannel server = false ∧ link.channelType ≠ channelMain then none
  else
    let tested := if server.saslEnabled then link.testWord capAuthSasl else link
    if link.withoutKey server oracles then some (tested, oracles.ackWritten)
    else if oracles.keyGenerated then some ({ tested with hasKey := true }, oracles.ackWritten)
    else some (tested, false)

/-! ## The end of the link phase -/

/-- The channel gets the client, with the capability words. -/
def handOver : RedLinkInfo :=
  (((link.reply .ok).readWords link.capsOffset link.numCommonCaps).readWords
    (link.capsOffset + 4 * link.numCommonCaps) link.numChannelCaps).free

/-- `reds_handle_main_link` or `reds_handle_other_links` connects the channel. -/
def isHandedOver : Bool :=
  decide (link.channelType = channelMain) || (server.clients.contains link.connectionId && link.knownChannel server)

def handleLink (evidence : Evidence) : RedLinkInfo :=
  let linked := { link with linked := some evidence }
  if link.channelType = channelMain then linked.handOver
  else if server.clients.contains link.connectionId = false then (linked.reply .badConnectionId).free
  else if link.knownChannel server = false then (linked.reply .channelNotAvailable).free
  else linked.handOver

/-! ## Tickets -/

def getSpiceTicket : Option RedLinkInfo := link.asyncRead (if link.hasKey then ticketSize else 0) .ticket

def ticketAccepted (encrypted : List UInt8) : Bool :=
  match oracles.decrypt encrypted with
  | none => false
  | some password =>
      if server.ticketingEnabled && !link.skipAuth then
        decide (cString server.password ≠ [] ∧ ¬ server.expirationTime < oracles.ltime ∧
          cString password = cString server.password)
      else true

def handleTicket (encrypted : List UInt8) : RedLinkInfo :=
  if link.ticketAccepted server oracles encrypted then link.handleLink server (.ticket encrypted)
  else (link.reply .permissionDenied).free

/-! ## SASL -/

/-- `RedsSaslError`, without `REDS_SASL_ERROR_RETRY`. -/
inductive SaslError
  | ok
  | generic
  | invalidData
  | more
  | authFailed
deriving DecidableEq, Repr

def checkSsf (answer : SaslAnswer) : Bool :=
  link.isSsl ||
    match answer.ssf with
    | none => false
    | some ssf => decide (56 ≤ ssf)

/-- `reds_sasl_handle_auth_start` and `reds_sasl_handle_auth_step`, which fail with different errors. -/
def saslResult (failed : SaslError) (answer : SaslAnswer) : SaslError :=
  if answer.code = .failed then failed
  else if saslDataMaxLen < answer.serverOutLen then .invalidData
  else if answer.code = .more then .more
  else if link.checkSsf answer then .ok
  else .authFailed

/-- The data for SASL: without data it gets a null pointer, and the last byte is the end of the string. -/
def saslData (data : List UInt8) : Option (List UInt8) := if data = [] then none else some data.dropLast

/-- The exchange succeeded with its last answer. -/
def saslSucceeded (exchanged : List (Option (List UInt8))) : Bool :=
  decide (link.saslResult .generic (oracles.saslAnswer exchanged) = .ok)

/-- `reds_handle_auth_sasl_start` and `reds_handle_auth_sasl_step`. -/
def handleAuthSasl (failed : SaslError) (data : List UInt8) : Option RedLinkInfo :=
  let asked := { link with exchanged := link.exchanged ++ [saslData data] }
  match link.saslResult failed (oracles.saslAnswer asked.exchanged) with
  | .ok => some (asked.handleLink server (.sasl asked.exchanged))
  | .more => asked.asyncRead 4 .authSaslSteplen
  | _ => some asked.free

def handleAuthSaslStart (data : List UInt8) : Option RedLinkInfo := link.handleAuthSasl server oracles .invalidData data

def handleAuthSaslStep (data : List UInt8) : Option RedLinkInfo := link.handleAuthSasl server oracles .generic data

def handleAuthSaslSteplen (length : Nat) : Option RedLinkInfo :=
  if saslDataMaxLen < length then some link.free
  else if length = 0 then link.handleAuthSaslStep server oracles []
  else link.asyncRead length .authSaslStep

def handleAuthStartlen (length : Nat) : Option RedLinkInfo :=
  if saslDataMaxLen < length then some (link.reply .invalidData).free
  else if length = 0 then link.handleAuthSaslStart server oracles []
  else link.asyncRead length .authSaslStart

/-- A byte of the list of mechanisms, of the zero after it, or of the memory around it. -/
def mechlistAt (index : Int) : UInt8 :=
  if 0 ≤ index ∧ index < link.mechlist.length then link.mechlist.getD index.toNat 0
  else if index = link.mechlist.length then 0
  else oracles.aroundMechlist index

/-- A mechanism ends at a zero or a comma. -/
def mechlistEnds (index : Int) : Bool := link.mechlistAt oracles index = 0 || link.mechlistAt oracles index = 44

/-- Where `strstr` finds the name. -/
def strstr (text name : List UInt8) : Option Nat :=
  (List.range (text.length + 1)).find? (fun start => name.isPrefixOf (text.drop start))

/-- `strncmp` of a text and the name gives 0; a name with a zero in it is compared as a whole text. -/
def sameStart (text name : List UInt8) : Bool :=
  if cString name = name then decide (text.take name.length = name) else decide (text = cString name)

/-- The checks of `reds_sasl_handle_auth_mechname`. -/
def mechnameAccepted (name : List UInt8) : Bool :=
  if sameStart link.mechlist name then link.mechlistEnds oracles name.length
  else
    match strstr link.mechlist (cString name) with
    | none => false
    | some start =>
        decide (link.mechlistAt oracles ((start : Int) - 1) = 44) && link.mechlistEnds oracles (start + name.length)

/-- The list starts with the name; with a zero in the name, it is the name. -/
def StartsWithName (name : List UInt8) : Prop :=
  if cString name = name then name <+: link.mechlist else link.mechlist = cString name

/-- The name is one of the list: at its start, or else behind a comma at the first place where it occurs; and a comma or
the end of the list comes behind it. -/
def MechnameListed (name : List UInt8) : Prop :=
  link.StartsWithName name ∧ link.mechlistEnds oracles name.length = true ∨
    ¬ link.StartsWithName name ∧ Exists fun start : Nat => start ≤ link.mechlist.length ∧
      cString name <+: link.mechlist.drop start ∧
      (forall earlier, earlier < start -> ¬ cString name <+: link.mechlist.drop earlier) ∧
      link.mechlistAt oracles ((start : Int) - 1) = 44 ∧ link.mechlistEnds oracles (start + name.length) = true

/-- `reds_handle_auth_mechname`; a name that is not accepted only gets a reply. -/
def handleAuthMechname (name : List UInt8) : Option RedLinkInfo :=
  if link.mechnameAccepted oracles name then
    { link with mechlist := cString name, exchanged := [some (cString name)] }.asyncRead 4 .authStartlen
  else some (link.reply .invalidData).abandon

def handleAuthMechlen (length : Nat) : Option RedLinkInfo :=
  if length < 1 ∨ 100 < length then some link.free else link.asyncRead length .authMechname

def startAuthSasl : Option RedLinkInfo :=
  match oracles.mechlist with
  | none => some link.free
  | some mechlist => { link with mechlist := cString mechlist }.asyncRead 4 .authMechlen

/-! ## The start of the link phase -/

def handleAuthMechanism (mechanism : Nat) : Option RedLinkInfo :=
  if mechanism = capAuthSpice ∧ server.saslEnabled = false then link.getSpiceTicket
  else if server.haveSasl = true ∧ mechanism = capAuthSasl then link.startAuthSasl oracles
  else some (link.reply .invalidData).free

/-- What `reds_handle_read_link_done` does after `reds_send_link_ack`. -/
def chooseAuth (authSelection : Bool) : Option RedLinkInfo :=
  if authSelection then link.asyncRead 4 .authMechanism
  else if server.saslEnabled && !link.skipAuth then some (link.reply .versionMismatch).abandon
  else link.getSpiceTicket

/-- The capabilities are not inside of the link message. -/
def capsOutside : Bool :=
  decide (link.numCaps ≠ 0 ∧ (link.linkMess.length < link.numCaps * 4 + link.capsOffset ∨
    link.capsOffset < linkMessSize))

/-- The words that are looked at before the channel is acknowledged. -/
def testedLink : RedLinkInfo := (link.readWords link.capsOffset link.numCaps).testWord capAuthSelection

def handleReadLinkDone : Option RedLinkInfo :=
  if link.capsOutside then some (link.reply .invalidData).free
  else if link.securityCheck server then
    match link.testedLink.sendLinkAck server oracles with
    | none => none
    | some (acked, true) => acked.chooseAuth server (link.testCapability oracles capAuthSelection)
    | some (acked, false) => some acked.free
  else some (link.testedLink.reply (if link.isSsl then .needUnsecured else .needSecured)).free

/-- `SPICE_MAGIC`, as it is sent. -/
def magic : List UInt8 := [82, 69, 68, 81]

def handleReadHeaderDone (header : List UInt8) : Option RedLinkInfo :=
  let major := littleEndian ((header.drop 4).take 4)
  let size := littleEndian ((header.drop 12).take 4)
  if header.take 4 ≠ magic then some (link.reply .invalidMagic).free
  else if major ≠ 2 then some (if 0 < major then (link.reply .versionMismatch).free else link.free)
  else if size < linkMessSize then some (link.reply .invalidData).free
  else link.asyncRead size .readLinkDone

/-- The function that waits is called with the bytes. -/
def readDone (data : List UInt8) : Option RedLinkInfo :=
  match link.wait with
  | .readHeaderDone => link.handleReadHeaderDone data
  | .readLinkDone => { link with linkMess := data }.handleReadLinkDone server oracles
  | .authMechanism => link.handleAuthMechanism server oracles (littleEndian data)
  | .ticket => some (link.handleTicket server oracles data)
  | .authMechlen => link.handleAuthMechlen (littleEndian data)
  | .authMechname => link.handleAuthMechname oracles data
  | .authStartlen => link.handleAuthStartlen server oracles (littleEndian data)
  | .authSaslStart => link.handleAuthSaslStart server oracles data
  | .authSaslSteplen => link.handleAuthSaslSteplen server oracles (littleEndian data)
  | .authSaslStep => link.handleAuthSaslStep server oracles data
  | .ended => some link

end RedLinkInfo

/-- The client sends a byte, or the connection fails. -/
inductive Event
  | byte (value : UInt8)
  | closed
deriving DecidableEq, Repr

namespace RedLinkInfo

def new (skipAuth isSsl : Bool) : RedLinkInfo where
  skipAuth := skipAuth
  isSsl := isSsl
  wait := .readHeaderDone
  awaited := linkHeaderSize
  received := []
  linkMess := []
  hasKey := false
  mechlist := []
  exchanged := []
  reads := []
  replies := []
  linked := none
  frees := 0

/-- `async_read_handler` for one byte, and `reds_handle_link_error`. -/
def step (server : Server) (oracles : Oracles) (link : RedLinkInfo) : Event -> Option RedLinkInfo
  | .byte value =>
      if link.wait = .ended then some link
      else if link.received.length + 1 = link.awaited then link.readDone server oracles (link.received ++ [value])
      else some { link with received := link.received ++ [value] }
  | .closed => if link.wait = .ended then some link else some link.free

end RedLinkInfo

/-! ## What a link has to meet -/

namespace RedLinkInfo

variable (server : Server) (oracles : Oracles) (link : RedLinkInfo)

/-- The authentication allows the link: it is skipped, or SASL is enabled and succeeded, or SASL is disabled and no
ticket is needed or the decrypted ticket is the password, which is set and has not expired. -/
def Authorised (evidence : Evidence) : Prop :=
  link.skipAuth = true ∨
  (server.saslEnabled = true ∧
    Exists fun exchanged => evidence = .sasl exchanged ∧ link.saslSucceeded oracles exchanged = true) ∨
  (server.saslEnabled = false ∧ (server.ticketingEnabled = false ∨
    Exists fun encrypted => Exists fun password => evidence = .ticket encrypted ∧
      oracles.decrypt encrypted = some password ∧ cString password = cString server.password ∧
      cString server.password ≠ [] ∧ oracles.ltime ≤ server.expirationTime))

/-- The words that were read are in the link message. -/
def WordsInside : Prop := forall words, words ∈ link.reads -> words.1 + 4 * words.2 ≤ link.linkMess.length

/-- A link is made only with authentication and on a stream that is allowed, capability words are read inside of the
link message, and the link is freed once, when no more bytes are awaited. -/
structure LinksSafely : Prop where
  authorised : forall evidence, link.linked = some evidence -> link.Authorised server oracles evidence
  secure : link.linked ≠ none -> link.securityCheck server = true
  words : link.WordsInside
  freed : link.frees = if link.wait = .ended then 1 else 0

/-- The sum of the counts fits into 32 bits. -/
def Counted : Prop := link.numCommonCaps + link.numChannelCaps < 2 ^ 32

/-- `reds_send_link_ack` succeeds, if its channel is known. -/
def acknowledged : Bool := oracles.ackWritten && (link.withoutKey server oracles || oracles.keyGenerated)

/-- A link message.  The first word is inside of it even if the counts add up to 0 in 32 bits; the channel exists; and a
client without the selection of an authentication is not one of a server with SASL, except when the authentication is
skipped and there is a key. -/
def MessageAllowed : Prop :=
  link.capsOutside = false ->
    (link.numCommonCaps + link.numChannelCaps = 2 ^ 32 -> link.capsOffset + 4 ≤ link.linkMess.length) ∧
    (link.securityCheck server = true ->
      (link.knownChannel server = true ∨ link.channelType = channelMain) ∧
      (link.acknowledged server oracles = true -> link.testCapability oracles capAuthSelection = true ∨
        server.saslEnabled = false ∨ (link.skipAuth = true ∧ link.testCapability oracles capAuthSasl = false)))

/-- A success of SASL: not on a server without SASL that wants a ticket, and the counts of a channel that is connected
fit into 32 bits. -/
def SaslAllowed (exchanged : List (Option (List UInt8))) : Prop :=
  link.saslSucceeded oracles exchanged = true ->
    (server.saslEnabled = false -> server.ticketingEnabled = true -> link.skipAuth = true) ∧
    (link.isHandedOver server = true -> link.Counted)

/-- The bytes that a function waited for. -/
def ReadAllowed (data : List UInt8) : Prop :=
  match link.wait with
  | .readLinkDone => { link with linkMess := data }.MessageAllowed server oracles
  | .ticket => link.ticketAccepted server oracles data = true -> link.isHandedOver server = true -> link.Counted
  | .authMechname => link.MechnameListed oracles data
  | .authStartlen => littleEndian data = 0 -> link.SaslAllowed server oracles (link.exchanged ++ [none])
  | .authSaslSteplen => littleEndian data = 0 -> link.SaslAllowed server oracles (link.exchanged ++ [none])
  | .authSaslStart => link.SaslAllowed server oracles (link.exchanged ++ [saslData data])
  | .authSaslStep => link.SaslAllowed server oracles (link.exchanged ++ [saslData data])
  | _ => True

/-- The condition on an event. -/
def Allowed : Event -> Prop
  | .byte value => link.received.length + 1 = link.awaited -> link.ReadAllowed server oracles (link.received ++ [value])
  | .closed => True

end RedLinkInfo

end Link
end Spice

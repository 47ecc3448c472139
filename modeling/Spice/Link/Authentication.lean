import Spice.Link.Model

namespace Spice
namespace Link

open Lib

namespace RedLinkInfo

/-!
# No channel without authentication

Each callback of the link phase either frees the link, waits for more bytes, or links the
channel.  What is known of a link that has sent its message is collected in `Ready`; the
places where the channel is linked are then judged by one lemma, in both directions: the
link is safe exactly if the authentication allows it and the words that the channel gets
are inside of the message.
-/

variable {server : Server} {oracles : Oracles} {link : RedLinkInfo}

/-! ## What the checks look at -/

section Congruence

variable {other : RedLinkInfo}

theorem capsOutside_congr (message : other.linkMess = link.linkMess) : other.capsOutside = link.capsOutside := by
  unfold capsOutside numCaps numCommonCaps numChannelCaps capsOffset field
  rw [message]

theorem securityCheck_congr (message : other.linkMess = link.linkMess) (stream : other.isSsl = link.isSsl) :
    other.securityCheck server = link.securityCheck server := by
  unfold securityCheck channelType field
  rw [message, stream]

theorem channelType_congr (message : other.linkMess = link.linkMess) : other.channelType = link.channelType := by
  unfold channelType field
  rw [message]

theorem knownChannel_congr (message : other.linkMess = link.linkMess) :
    other.knownChannel server = link.knownChannel server := by
  unfold knownChannel channelType channelId field
  rw [message]

theorem withoutKey_congr (message : other.linkMess = link.linkMess) :
    other.withoutKey server oracles = link.withoutKey server oracles := by
  unfold withoutKey testCapability numCommonCaps capsOffset field byteAt
  rw [message]

theorem acknowledged_congr (message : other.linkMess = link.linkMess) :
    other.acknowledged server oracles = link.acknowledged server oracles := by
  unfold acknowledged
  rw [withoutKey_congr message]

theorem counted_congr (message : other.linkMess = link.linkMess) : other.Counted <-> link.Counted := by
  unfold Counted numCommonCaps numChannelCaps field
  rw [message]

theorem wordsInside_congr (message : other.linkMess = link.linkMess) (reads : other.reads = link.reads) :
    other.WordsInside <-> link.WordsInside := by
  unfold WordsInside
  rw [message, reads]

theorem authorised_congr (stream : other.isSsl = link.isSsl) (skips : other.skipAuth = link.skipAuth)
    (evidence : Evidence) :
    other.Authorised server oracles evidence <-> link.Authorised server oracles evidence := by
  unfold Authorised saslSucceeded saslResult checkSsf
  rw [skips, stream]

end Congruence

/-! ## Words of the link message -/

theorem wordsInside_readWords (start count : Nat) : (link.readWords start count).WordsInside <->
      link.WordsInside ∧ (count ≠ 0 -> start + 4 * count ≤ link.linkMess.length) := by
  unfold WordsInside readWords
  by_cases none : count = 0
  · simp [none]
  · simp only [none, if_false, List.mem_append, List.mem_singleton]
    constructor
    · intro inside
      exact ⟨fun words member => inside words (.inl member), fun _ => inside (start, count) (.inr rfl)⟩
    · intro inside words member
      rcases member with old | new
      · exact inside.1 words old
      · rw [new]
        exact inside.2 none

theorem inside_of_check (checked : link.capsOutside = false) (some : link.numCaps ≠ 0) :
    link.numCaps * 4 + link.capsOffset ≤ link.linkMess.length := by
  unfold capsOutside at checked
  have passes := of_decide_eq_false checked
  by_contra outside
  exact passes ⟨some, .inl (Nat.lt_of_not_le outside)⟩

theorem field_lt (offset : Nat) : link.field offset 4 < 2 ^ 32 := by
  unfold field
  have short : ((link.linkMess.drop offset).take 4).length ≤ 4 := List.length_take_le _ _
  calc littleEndian ((link.linkMess.drop offset).take 4)
      < 256 ^ ((link.linkMess.drop offset).take 4).length := littleEndian_lt _
    _ ≤ 256 ^ 4 := Nat.pow_le_pow_right (by decide) short
    _ = 2 ^ 32 := by decide

/-- The words that are handed over are in the message. -/
theorem handed_words_iff (checked : link.capsOutside = false) (short : link.linkMess.length < 2 ^ 32) :
    ((link.numCommonCaps ≠ 0 -> link.capsOffset + 4 * link.numCommonCaps ≤ link.linkMess.length) ∧
      (link.numChannelCaps ≠ 0 ->
        link.capsOffset + 4 * link.numCommonCaps + 4 * link.numChannelCaps ≤ link.linkMess.length)) <->
          link.Counted := by
  have common : link.numCommonCaps < 2 ^ 32 := field_lt 6
  have channel : link.numChannelCaps < 2 ^ 32 := field_lt 10
  have inside := inside_of_check checked
  unfold numCaps at inside
  unfold Counted
  constructor
  · intro words
    by_contra wraps
    have outside := words.2 (by omega)
    omega
  · intro fits
    rw [Nat.mod_eq_of_lt fits] at inside
    refine ⟨fun some => ?_, fun some => ?_⟩
    · have sum := inside (by omega)
      omega
    · have sum := inside (by omega)
      omega

/-- The words that are tested are in the message. -/
theorem tested_words_iff (checked : link.capsOutside = false) :
    (link.numCommonCaps ≠ 0 -> link.capsOffset + 4 ≤ link.linkMess.length) <->
      (link.numCommonCaps + link.numChannelCaps = 2 ^ 32 -> link.capsOffset + 4 ≤ link.linkMess.length) := by
  have common : link.numCommonCaps < 2 ^ 32 := field_lt 6
  have channel : link.numChannelCaps < 2 ^ 32 := field_lt 10
  have inside := inside_of_check checked
  unfold numCaps at inside
  constructor
  · intro word wraps
    exact word (by omega)
  · intro word some
    by_cases wraps : link.numCommonCaps + link.numChannelCaps = 2 ^ 32
    · exact word wraps
    · have sum := inside (by omega)
      omega

/-! ## Linking -/

/-- A link whose message was accepted. -/
structure Ready (server : Server) (link : RedLinkInfo) : Prop where
  secure : link.securityCheck server = true
  checked : link.capsOutside = false
  short : link.linkMess.length < 2 ^ 32
  words : link.WordsInside
  unlinked : link.linked = none
  unfreed : link.frees = 0

/-- The fields that decide whether a link is ready. -/
structure SameLink (link other : RedLinkInfo) : Prop where
  linkMess : other.linkMess = link.linkMess
  isSsl : other.isSsl = link.isSsl
  reads : other.reads = link.reads
  linked : other.linked = link.linked
  frees : other.frees = link.frees

theorem Ready.transfer {other : RedLinkInfo} (ready : Ready server link) (same : SameLink link other) :
    Ready server other where
  secure := (securityCheck_congr same.linkMess same.isSsl).trans ready.secure
  checked := (capsOutside_congr same.linkMess).trans ready.checked
  short := same.linkMess ▸ ready.short
  words := (wordsInside_congr same.linkMess same.reads).mpr ready.words
  unlinked := same.linked.trans ready.unlinked
  unfreed := same.frees.trans ready.unfreed

theorem freed_of_unlinked (words : link.WordsInside) (unlinked : link.linked = none) (unfreed : link.frees = 0) :
    LinksSafely server oracles link.free where
  authorised := fun evidence linked => nomatch unlinked.symm.trans linked
  secure := fun linked => absurd unlinked linked
  words := (wordsInside_congr rfl rfl).mpr words
  freed := by
    show link.frees + 1 = 1
    rw [unfreed]

theorem replied_freed (words : link.WordsInside) (unlinked : link.linked = none) (unfreed : link.frees = 0)
    (err : LinkErr) :
    LinksSafely server oracles (link.reply err).free :=
  freed_of_unlinked ((wordsInside_congr rfl rfl).mpr words) unlinked unfreed

theorem words_of_freed (safe : LinksSafely server oracles link.free) : link.WordsInside :=
  (wordsInside_congr rfl rfl).mp safe.words

theorem words_of_replied_freed {err : LinkErr} (safe : LinksSafely server oracles (link.reply err).free) :
    link.WordsInside :=
  (wordsInside_congr rfl rfl).mp safe.words

theorem Ready.freed (ready : Ready server link) : LinksSafely server oracles link.free :=
  freed_of_unlinked ready.words ready.unlinked ready.unfreed

theorem wordsInside_handOver : link.handOver.WordsInside <-> link.WordsInside ∧
    ((link.numCommonCaps ≠ 0 -> link.capsOffset + 4 * link.numCommonCaps ≤ link.linkMess.length) ∧
      (link.numChannelCaps ≠ 0 ->
        link.capsOffset + 4 * link.numCommonCaps + 4 * link.numChannelCaps ≤ link.linkMess.length)) := by
  have handed : link.handOver.WordsInside <-> (((link.reply .ok).readWords link.capsOffset link.numCommonCaps).readWords
      (link.capsOffset + 4 * link.numCommonCaps) link.numChannelCaps).WordsInside := wordsInside_congr rfl rfl
  have replied : (link.reply .ok).WordsInside <-> link.WordsInside := wordsInside_congr rfl rfl
  rw [handed, wordsInside_readWords, wordsInside_readWords, replied, and_assoc]
  exact Iff.rfl

/-- When a link that was authenticated is handed over safely. -/
theorem handOver_iff {evidence : Evidence} (linked : link.linked = some evidence)
    (secure : link.securityCheck server = true)
    (checked : link.capsOutside = false) (short : link.linkMess.length < 2 ^ 32) (words : link.WordsInside)
    (unfreed : link.frees = 0) :
    LinksSafely server oracles link.handOver <-> link.Authorised server oracles evidence ∧ link.Counted := by
  have given : link.handOver.WordsInside <-> link.Counted := by
    rw [wordsInside_handOver, handed_words_iff checked short, and_iff_right words]
  have message : link.handOver.linkMess = link.linkMess := by dsimp only [handOver, free, readWords, reply]
  have stream : link.handOver.isSsl = link.isSsl := by dsimp only [handOver, free, readWords, reply]
  have skips : link.handOver.skipAuth = link.skipAuth := by dsimp only [handOver, free, readWords, reply]
  have same : link.handOver.linked = some evidence := by
    dsimp only [handOver, free, readWords, reply]
    exact linked
  have once : link.handOver.frees = 1 := by
    dsimp only [handOver, free, readWords, reply]
    rw [unfreed]
  constructor
  · intro safe
    exact ⟨(authorised_congr stream skips evidence).mp (safe.authorised evidence same), given.mp safe.words⟩
  · intro allowed
    refine ⟨fun other isOther => ?_, fun _ => (securityCheck_congr message stream).trans secure,
      given.mpr allowed.2, once⟩
    cases same.symm.trans isOther
    exact (authorised_congr stream skips evidence).mpr allowed.1

theorem refused_iff {evidence : Evidence} (linked : link.linked = some evidence)
    (secure : link.securityCheck server = true)
    (words : link.WordsInside) (unfreed : link.frees = 0) (err : LinkErr) :
    LinksSafely server oracles (link.reply err).free <-> link.Authorised server oracles evidence := by
  have once : link.frees + 1 = 1 := by rw [unfreed]
  constructor
  · intro safe
    exact (authorised_congr rfl rfl evidence).mp (safe.authorised evidence linked)
  · intro allowed
    refine ⟨fun other isOther => ?_, fun _ => (securityCheck_congr rfl rfl).trans secure,
      (wordsInside_congr rfl rfl).mpr words, once⟩
    cases linked.symm.trans isOther
    exact (authorised_congr rfl rfl evidence).mpr allowed

theorem handleLink_of_handedOver (evidence : Evidence) (handed : link.isHandedOver server = true) :
    link.handleLink server evidence = { link with linked := some evidence }.handOver := by
  unfold isHandedOver at handed
  unfold handleLink
  dsimp only
  by_cases main : link.channelType = channelMain
  · rw [if_pos main]
  · rw [decide_eq_false main, Bool.false_or, Bool.and_eq_true] at handed
    rw [if_neg main, if_neg (by rw [handed.1]; decide), if_neg (by rw [handed.2]; decide)]

/-- A link that is not handed over ends with an error. -/
theorem handleLink_of_refused (evidence : Evidence) (refused : ¬ link.isHandedOver server = true) :
    Exists fun err => link.handleLink server evidence = ({ link with linked := some evidence }.reply err).free := by
  unfold isHandedOver at refused
  unfold handleLink
  dsimp only
  by_cases main : link.channelType = channelMain
  · exact absurd (by rw [decide_eq_true main, Bool.true_or]) refused
  · rw [decide_eq_false main, Bool.false_or] at refused
    rw [if_neg main]
    cases client : server.clients.contains link.connectionId with
    | false => exact ⟨_, if_pos rfl⟩
    | true =>
        cases known : link.knownChannel server with
        | false => exact ⟨_, by rw [if_neg (by decide), if_pos rfl]⟩
        | true => exact absurd (by rw [client, known]; rfl) refused

theorem wait_handleLink (evidence : Evidence) : (link.handleLink server evidence).wait = .ended := by
  by_cases handed : link.isHandedOver server = true
  · rw [handleLink_of_handedOver evidence handed]
    rfl
  · obtain ⟨err, isLink⟩ := handleLink_of_refused evidence handed
    rw [isLink]
    rfl

/-- When the end of the authentication is safe. -/
theorem Ready.handleLink_iff (ready : Ready server link) (evidence : Evidence) :
    LinksSafely server oracles (link.handleLink server evidence) <->
      link.Authorised server oracles evidence ∧ (link.isHandedOver server = true -> link.Counted) := by
  have secure : securityCheck server { link with linked := some evidence } = true :=
    (securityCheck_congr rfl rfl).trans ready.secure
  have words : WordsInside { link with linked := some evidence } := (wordsInside_congr rfl rfl).mpr ready.words
  have sameAuth : Authorised server oracles { link with linked := some evidence } evidence <->
      link.Authorised server oracles evidence := authorised_congr rfl rfl evidence
  by_cases handed : link.isHandedOver server = true
  · have checked : capsOutside { link with linked := some evidence } = false :=
      (capsOutside_congr rfl).trans ready.checked
    have sameCount : Counted { link with linked := some evidence } <-> link.Counted := counted_congr rfl
    rw [handleLink_of_handedOver evidence handed,
      handOver_iff rfl secure checked ready.short words ready.unfreed, sameAuth,
      sameCount]
    exact and_congr_right (fun _ => ⟨fun counted _ => counted, fun counted => counted handed⟩)
  · obtain ⟨err, isLink⟩ := handleLink_of_refused evidence handed
    rw [isLink, refused_iff rfl secure words ready.unfreed, sameAuth]
    exact ⟨fun allowed => ⟨allowed, fun impossible => absurd impossible handed⟩, fun allowed => allowed.1⟩

/-! ## Tickets and SASL -/

/-- A ticket that is accepted authorises the client. -/
theorem authorised_of_ticket {encrypted : List UInt8} (accepted : link.ticketAccepted server oracles encrypted = true)
    (asked : server.saslEnabled = false ∨ link.skipAuth = true) :
    link.Authorised server oracles (.ticket encrypted) := by
  unfold Authorised
  cases skipped : link.skipAuth with
  | true => exact .inl rfl
  | false =>
      rw [skipped] at asked
      have disabled := asked.resolve_right (by decide)
      refine .inr (.inr ⟨disabled, ?_⟩)
      unfold ticketAccepted at accepted
      cases decrypted : oracles.decrypt encrypted with
      | none =>
          rw [decrypted] at accepted
          cases accepted
      | some password =>
          rw [decrypted] at accepted
          cases ticketing : server.ticketingEnabled with
          | false => exact .inl rfl
          | true =>
              rw [ticketing, skipped] at accepted
              have facts := of_decide_eq_true accepted
              exact .inr ⟨encrypted, password, rfl, decrypted, facts.2.2, facts.1, Int.not_lt.mp facts.2.1⟩

/-- When SASL authorises it. -/
theorem authorised_sasl_iff {exchanged : List (Option (List UInt8))}
    (succeeded : link.saslSucceeded oracles exchanged = true) :
    link.Authorised server oracles (.sasl exchanged) <->
      (server.saslEnabled = false -> server.ticketingEnabled = true -> link.skipAuth = true) := by
  unfold Authorised
  constructor
  · intro allowed disabled ticketing
    rcases allowed with skipped | ⟨enabled, _⟩ | ⟨_, noTicket | ⟨encrypted, password, same, _⟩⟩
    · exact skipped
    · cases enabled.symm.trans disabled
    · cases ticketing.symm.trans noTicket
    · cases same
  · intro allowed
    cases enabled : server.saslEnabled with
    | true => exact .inr (.inl ⟨rfl, exchanged, rfl, succeeded⟩)
    | false =>
        cases ticketing : server.ticketingEnabled with
        | true => exact .inl (allowed enabled ticketing)
        | false => exact .inr (.inr ⟨rfl, .inl rfl⟩)

theorem saslResult_ok_iff (failed : SaslError) (answer : SaslAnswer) (fails : failed ≠ .ok) :
    link.saslResult failed answer = .ok <-> link.saslResult .generic answer = .ok := by
  unfold saslResult
  by_cases failure : answer.code = .failed
  · rw [if_pos failure, if_pos failure]
    exact ⟨fun impossible => absurd impossible fails, fun impossible => nomatch impossible⟩
  · rw [if_neg failure, if_neg failure]

/-! ## The invariant -/

/-- A link whose message was not read. -/
structure Fresh (link : RedLinkInfo) : Prop where
  unread : link.reads = []
  unlinked : link.linked = none
  unfreed : link.frees = 0
  noKey : link.hasKey = false

/-- Before the message nothing was read; after it the link is ready; a ticket is awaited only without SASL, or if the
authentication is skipped; and without SASL there is a key. -/
structure Underway (server : Server) (oracles : Oracles) (link : RedLinkInfo) : Prop where
  ended : link.wait = .ended -> LinksSafely server oracles link
  starts : link.wait = .readHeaderDone ∨ link.wait = .readLinkDone -> Fresh link
  short : link.wait = .readLinkDone -> link.awaited < 2 ^ 32
  ready : link.wait ≠ .ended -> link.wait ≠ .readHeaderDone -> link.wait ≠ .readLinkDone -> Ready server link
  ticket : link.wait = .ticket -> server.saslEnabled = false ∨ link.skipAuth = true
  key : link.wait = .authMechanism -> server.saslEnabled = false -> link.hasKey = true

theorem Underway.of_ended (ended : link.wait = .ended) (safe : LinksSafely server oracles link) :
    Underway server oracles link where
  ended := fun _ => safe
  starts := fun early => by rcases early with early | early <;> cases ended.symm.trans early
  short := fun early => nomatch ended.symm.trans early
  ready := fun underway => absurd ended underway
  ticket := fun awaited => nomatch ended.symm.trans awaited
  key := fun awaited => nomatch ended.symm.trans awaited

/-- A link that is under way is safe. -/
theorem Underway.safe (underway : Underway server oracles link) : LinksSafely server oracles link := by
  by_cases ended : link.wait = .ended
  · exact underway.ended ended
  · have unlinked : link.WordsInside ∧ link.linked = none ∧ link.frees = 0 := by
      by_cases early : link.wait = .readHeaderDone ∨ link.wait = .readLinkDone
      · have fresh := underway.starts early
        refine ⟨fun words member => ?_, fresh.unlinked, fresh.unfreed⟩
        rw [fresh.unread] at member
        cases member
      · have ready := underway.ready ended (fun header => early (.inl header)) (fun message => early (.inr message))
        exact ⟨ready.words, ready.unlinked, ready.unfreed⟩
    refine ⟨fun evidence linked => ?_, fun linked => ?_, unlinked.1, ?_⟩
    · cases unlinked.2.1.symm.trans linked
    · exact absurd unlinked.2.1 linked
    · rw [if_neg ended, unlinked.2.2]

/-- The state of the invariant that a callback leaves. -/
def Goes (server : Server) (oracles : Oracles) (result : Option RedLinkInfo) : Prop :=
  Exists fun next => result = some next ∧ Underway server oracles next

variable {next : RedLinkInfo}

theorem Goes.of_ended (ended : next.wait = .ended) (safe : LinksSafely server oracles next) :
    Goes server oracles (some next) := ⟨next, rfl, .of_ended ended safe⟩

theorem Ready.asyncRead (ready : Ready server link) {size : Nat} (some : size ≠ 0) {wait : Wait}
    (late : wait ≠ .ended ∧ wait ≠ .readHeaderDone ∧ wait ≠ .readLinkDone)
    (ticket : wait = .ticket -> server.saslEnabled = false ∨ link.skipAuth = true)
    (key : wait = .authMechanism -> server.saslEnabled = false -> link.hasKey = true) :
    Goes server oracles (link.asyncRead size wait) := by
  unfold RedLinkInfo.asyncRead
  rw [if_neg some]
  refine ⟨_, rfl, fun ended => absurd ended late.1, fun early => ?_, fun early => absurd early late.2.2,
    fun _ _ _ => ?_, ticket,
    key⟩
  · rcases early with header | message
    · exact absurd header late.2.1
    · exact absurd message late.2.2
  · exact ready.transfer ⟨rfl, rfl, rfl, rfl, rfl⟩

/-! ## The callbacks -/

theorem Ready.exchange (ready : Ready server link) (mechlist : List UInt8) (exchanged : List (Option (List UInt8))) :
    Ready server { link with mechlist := mechlist, exchanged := exchanged } :=
  ready.transfer ⟨rfl, rfl, rfl, rfl, rfl⟩

theorem Ready.reply (ready : Ready server link) (err : LinkErr) : Ready server (link.reply err) :=
  ready.transfer ⟨rfl, rfl, rfl, rfl, rfl⟩

theorem Fresh.freed (fresh : Fresh link) : LinksSafely server oracles link.free := by
  refine freed_of_unlinked (fun words member => ?_) fresh.unlinked fresh.unfreed
  rw [fresh.unread] at member
  cases member

/-- The header was read. -/
theorem Fresh.handleReadHeaderDone (fresh : Fresh link) (header : List UInt8) :
    Goes server oracles (link.handleReadHeaderDone header) := by
  have replied : forall err, Fresh (link.reply err) :=
    fun err => ⟨fresh.unread, fresh.unlinked, fresh.unfreed, fresh.noKey⟩
  unfold RedLinkInfo.handleReadHeaderDone
  dsimp only
  split
  · exact .of_ended rfl (replied _).freed
  · split
    · split
      · exact .of_ended rfl (replied _).freed
      · exact .of_ended rfl fresh.freed
    · split
      · exact .of_ended rfl (replied _).freed
      · rename_i _ _ large
        have positive : littleEndian ((header.drop 12).take 4) ≠ 0 := by
          intro zero
          rw [zero] at large
          exact large (by decide)
        have short : littleEndian ((header.drop 12).take 4) < 2 ^ 32 := by
          refine Nat.lt_of_lt_of_le (littleEndian_lt _) ?_
          exact Nat.pow_le_pow_right (n := 256) (by decide) (List.length_take_le 4 _)
        unfold RedLinkInfo.asyncRead
        rw [if_neg positive]
        refine ⟨_, rfl, fun ended => (nomatch ended), fun _ => ?_, fun _ => short, fun _ _ late => absurd rfl late,
          fun awaited => (nomatch awaited), fun awaited => (nomatch awaited)⟩
        exact ⟨fresh.unread, fresh.unlinked, fresh.unfreed, fresh.noKey⟩

theorem Ready.handleTicket (ready : Ready server link) {encrypted : List UInt8}
    (asked : server.saslEnabled = false ∨ link.skipAuth = true)
    (allowed : link.ticketAccepted server oracles encrypted = true -> link.isHandedOver server = true -> link.Counted) :
    Goes server oracles (some (link.handleTicket server oracles encrypted)) := by
  unfold RedLinkInfo.handleTicket
  by_cases accepted : link.ticketAccepted server oracles encrypted = true
  · rw [if_pos accepted]
    have safe := (ready.handleLink_iff (.ticket encrypted)).mpr ⟨authorised_of_ticket accepted asked, allowed accepted⟩
    exact .of_ended (wait_handleLink _) safe
  · rw [if_neg accepted]
    exact .of_ended rfl (ready.reply _).freed

theorem Ready.sasl_iff (ready : Ready server link) {exchanged : List (Option (List UInt8))}
    (succeeded : link.saslSucceeded oracles exchanged = true) :
    LinksSafely server oracles ({ link with exchanged := exchanged }.handleLink server (.sasl exchanged)) <->
      link.SaslAllowed server oracles exchanged := by
  refine ((ready.exchange link.mechlist exchanged).handleLink_iff _).trans ?_
  show link.Authorised server oracles _ ∧ (link.isHandedOver server = true -> link.Counted) <-> _
  rw [authorised_sasl_iff succeeded]
  exact ⟨fun allowed _ => allowed, fun allowed => allowed succeeded⟩

theorem Ready.handleAuthSasl (ready : Ready server link) {failed : SaslError} (fails : failed ≠ .ok) {data : List UInt8}
    (allowed : link.SaslAllowed server oracles (link.exchanged ++ [saslData data])) :
    Goes server oracles (link.handleAuthSasl server oracles failed data) := by
  have asked := ready.exchange link.mechlist (link.exchanged ++ [saslData data])
  unfold RedLinkInfo.handleAuthSasl
  dsimp only
  split
  · rename_i success
    have succeeded := decide_eq_true ((saslResult_ok_iff failed _ fails).mp success)
    exact .of_ended (wait_handleLink _) ((ready.sasl_iff succeeded).mpr allowed)
  · exact asked.asyncRead (by decide) (by decide) (fun awaited => nomatch awaited) (fun awaited => nomatch awaited)
  · exact .of_ended rfl asked.freed

theorem Ready.saslAllowed (ready : Ready server link) {failed : SaslError} (fails : failed ≠ .ok) {data : List UInt8}
    (stepped : link.handleAuthSasl server oracles failed data = some next)
    (safe : LinksSafely server oracles next) : link.SaslAllowed server oracles (link.exchanged ++ [saslData data]) := by
  intro succeeded
  have success := (saslResult_ok_iff failed _ fails).mpr (of_decide_eq_true succeeded)
  unfold RedLinkInfo.handleAuthSasl at stepped
  dsimp only at stepped
  rw [success] at stepped
  cases stepped
  exact (ready.sasl_iff succeeded).mp safe succeeded

theorem Ready.handleAuthSaslSteplen (ready : Ready server link) {length : Nat}
    (allowed : length = 0 -> link.SaslAllowed server oracles (link.exchanged ++ [none])) :
    Goes server oracles (link.handleAuthSaslSteplen server oracles length) := by
  unfold RedLinkInfo.handleAuthSaslSteplen
  split
  · exact .of_ended rfl ready.freed
  · split
    · rename_i empty
      exact ready.handleAuthSasl (by decide) (allowed empty)
    · rename_i some
      exact ready.asyncRead some (by decide) (fun awaited => nomatch awaited) (fun awaited => nomatch awaited)

theorem Ready.handleAuthStartlen (ready : Ready server link) {length : Nat}
    (allowed : length = 0 -> link.SaslAllowed server oracles (link.exchanged ++ [none])) :
    Goes server oracles (link.handleAuthStartlen server oracles length) := by
  unfold RedLinkInfo.handleAuthStartlen
  split
  · exact .of_ended rfl (ready.reply _).freed
  · split
    · rename_i empty
      exact ready.handleAuthSasl (by decide) (allowed empty)
    · rename_i some
      exact ready.asyncRead some (by decide) (fun awaited => nomatch awaited) (fun awaited => nomatch awaited)

theorem sameStart_iff (name : List UInt8) : sameStart link.mechlist name = true <-> link.StartsWithName name := by
  unfold sameStart RedLinkInfo.StartsWithName
  split
  · rw [decide_eq_true_iff, List.prefix_iff_eq_take, eq_comm]
  · exact decide_eq_true_iff

/-- `strstr` finds the first place of a name. -/
theorem strstr_eq_some {text name : List UInt8} {start : Nat} : strstr text name = some start <->
    start ≤ text.length ∧ name <+: text.drop start ∧ forall earlier, earlier < start ->
      ¬ name <+: text.drop earlier := by
  unfold strstr
  rw [List.find?_range_eq_some]
  simp only [List.isPrefixOf_iff_prefix, List.mem_range, Nat.lt_succ_iff, Bool.not_eq_true', ← Bool.not_eq_true]
  tauto

/-- The checks accept just the names of the list. -/
theorem mechnameAccepted_iff (name : List UInt8) :
    link.mechnameAccepted oracles name = true <-> link.MechnameListed oracles name := by
  unfold RedLinkInfo.mechnameAccepted RedLinkInfo.MechnameListed
  by_cases starts : link.StartsWithName name
  · rw [if_pos ((sameStart_iff name).mpr starts)]
    exact ⟨fun ends => .inl ⟨starts, ends⟩, fun listed => listed.elim And.right fun other => absurd starts other.1⟩
  · rw [if_neg fun same => starts ((sameStart_iff name).mp same)]
    cases found : strstr link.mechlist (cString name) with
    | none =>
        refine ⟨fun accepted => (nomatch accepted), fun listed => ?_⟩
        rcases listed with ⟨starting, -⟩ | ⟨-, start, inside, occurs, first, -⟩
        · exact absurd starting starts
        · cases found.symm.trans (strstr_eq_some.mpr ⟨inside, occurs, first⟩)
    | some start =>
        rcases strstr_eq_some.mp found with ⟨inside, occurs, first⟩
        rw [Bool.and_eq_true, decide_eq_true_iff]
        refine ⟨fun accepted => .inr ⟨starts, start, inside, occurs, first, accepted⟩, fun listed => ?_⟩
        rcases listed with ⟨starting, -⟩ | ⟨-, other, otherInside, otherOccurs, otherFirst, accepted⟩
        · exact absurd starting starts
        · cases found.symm.trans (strstr_eq_some.mpr ⟨otherInside, otherOccurs, otherFirst⟩)
          exact accepted

theorem Ready.handleAuthMechname (ready : Ready server link) {name : List UInt8}
    (accepted : link.mechnameAccepted oracles name = true) :
    Goes server oracles (link.handleAuthMechname oracles name) := by
  unfold RedLinkInfo.handleAuthMechname
  rw [if_pos accepted]
  exact (ready.exchange _ _).asyncRead (by decide) (by decide) (fun awaited => nomatch awaited)
    (fun awaited => nomatch awaited)

theorem not_safe_abandon (unfreed : link.frees = 0) : Not (LinksSafely server oracles link.abandon) := by
  intro safe
  have freed : link.frees = 1 := safe.freed
  cases unfreed.symm.trans freed

theorem Ready.mechnameAccepted (ready : Ready server link) {name : List UInt8}
    (stepped : link.handleAuthMechname oracles name = some next) (safe : LinksSafely server oracles next) :
    link.mechnameAccepted oracles name = true := by
  by_contra refused
  unfold RedLinkInfo.handleAuthMechname at stepped
  rw [if_neg refused] at stepped
  cases stepped
  exact not_safe_abandon (ready.reply _).unfreed safe

theorem Ready.handleAuthMechlen (ready : Ready server link) (length : Nat) :
    Goes server oracles (link.handleAuthMechlen length) := by
  unfold RedLinkInfo.handleAuthMechlen
  split
  · exact .of_ended rfl ready.freed
  · rename_i bounded
    exact ready.asyncRead (by omega) (by decide) (fun awaited => nomatch awaited) (fun awaited => nomatch awaited)

theorem Ready.startAuthSasl (ready : Ready server link) : Goes server oracles (link.startAuthSasl oracles) := by
  unfold RedLinkInfo.startAuthSasl
  split
  · exact .of_ended rfl ready.freed
  · exact (ready.exchange _ link.exchanged).asyncRead (by decide) (by decide) (fun awaited => nomatch awaited)
      (fun awaited => nomatch awaited)

theorem Ready.handleAuthMechanism (ready : Ready server link) (key : server.saslEnabled = false -> link.hasKey = true)
    (mechanism : Nat) : Goes server oracles (link.handleAuthMechanism server oracles mechanism) := by
  unfold RedLinkInfo.handleAuthMechanism
  split
  · rename_i spice
    unfold RedLinkInfo.getSpiceTicket
    rw [if_pos (key spice.2)]
    exact ready.asyncRead (by decide) (by decide) (fun _ => .inl spice.2) (fun awaited => nomatch awaited)
  · split
    · exact ready.startAuthSasl
    · exact .of_ended rfl (ready.reply _).freed

/-! ## The link message -/

section Message

variable (server oracles link)

/-- The link after `reds_send_link_ack`. -/
def ackedLink : RedLinkInfo :=
  { (if server.saslEnabled then link.testWord capAuthSasl else link) with
    hasKey := link.hasKey || (!link.withoutKey server oracles && oracles.keyGenerated) }

end Message

theorem sendLinkAck_eq (known : link.knownChannel server = true ∨ link.channelType = channelMain) :
    link.sendLinkAck server oracles = some (link.ackedLink server oracles, link.acknowledged server oracles) := by
  unfold sendLinkAck ackedLink acknowledged
  rw [if_neg (by rcases known with isKnown | main
                 · exact fun unknown => nomatch isKnown.symm.trans unknown.1
                 · exact fun unknown => unknown.2 main)]
  dsimp only
  cases without : link.withoutKey server oracles <;> cases generated : oracles.keyGenerated <;>
    cases enabled : server.saslEnabled <;> simp [testWord, readWords]

/-- What looking at words leaves as it is. -/
structure SameBesides (link other : RedLinkInfo) : Prop where
  linkMess : other.linkMess = link.linkMess
  isSsl : other.isSsl = link.isSsl
  skipAuth : other.skipAuth = link.skipAuth
  linked : other.linked = link.linked
  frees : other.frees = link.frees

theorem SameBesides.trans {middle other : RedLinkInfo} (first : SameBesides link middle)
    (second : SameBesides middle other) :
    SameBesides link other where
  linkMess := second.linkMess.trans first.linkMess
  isSsl := second.isSsl.trans first.isSsl
  skipAuth := second.skipAuth.trans first.skipAuth
  linked := second.linked.trans first.linked
  frees := second.frees.trans first.frees

theorem sameBesides_testWord (cap : Nat) : SameBesides link (link.testWord cap) := by
  constructor <;> dsimp only [testWord, readWords]

theorem sameBesides_tested : SameBesides link link.testedLink := by
  constructor <;> dsimp only [testedLink, testWord, readWords]

theorem sameBesides_acked : SameBesides link (link.ackedLink server oracles) := by
  unfold ackedLink
  cases server.saslEnabled with
  | false => exact ⟨rfl, rfl, rfl, rfl, rfl⟩
  | true =>
      have tested : SameBesides link (link.testWord capAuthSasl) := sameBesides_testWord capAuthSasl
      exact ⟨tested.linkMess, tested.isSsl, tested.skipAuth, tested.linked, tested.frees⟩

/-- The test of a capability reads inside of the message. -/
theorem wordsInside_tested (fresh : Fresh link) (checked : link.capsOutside = false) : link.testedLink.WordsInside <->
      (link.numCommonCaps + link.numChannelCaps = 2 ^ 32 -> link.capsOffset + 4 ≤ link.linkMess.length) := by
  have inside := inside_of_check checked
  unfold testedLink testWord
  rw [wordsInside_readWords, wordsInside_readWords, <- tested_words_iff checked]
  show (link.WordsInside ∧ (link.numCaps ≠ 0 -> link.capsOffset + 4 * link.numCaps ≤ link.linkMess.length)) ∧
    ((if link.numCommonCaps < 1 then 0 else 1) ≠ 0 ->
      link.capsOffset + 4 * (if link.numCommonCaps < 1 then 0 else 1) ≤ link.linkMess.length) <-> _
  constructor
  · intro words some
    have word := words.2
    rw [if_neg (by omega)] at word
    exact word (by decide)
  · intro word
    refine ⟨⟨fun words member => ?_, fun some => ?_⟩, fun some => ?_⟩
    · rw [fresh.unread] at member
      cases member
    · have sum := inside some
      omega
    · by_cases none : link.numCommonCaps < 1
      · rw [if_pos none] at some
        exact absurd rfl some
      · rw [if_neg none]
        exact word (by omega)

/-- The reply reads inside of the message, too. -/
theorem wordsInside_acked (words : link.WordsInside)
    (word : link.numCommonCaps ≠ 0 -> link.capsOffset + 4 ≤ link.linkMess.length) :
    (link.ackedLink server oracles).WordsInside := by
  unfold ackedLink
  cases enabled : server.saslEnabled with
  | false => exact words
  | true =>
      have again : (link.testWord capAuthSasl).WordsInside := by
        unfold testWord
        rw [wordsInside_readWords]
        refine ⟨words, fun some => ?_⟩
        by_cases none : link.numCommonCaps < capAuthSasl / 32 + 1
        · exact absurd (if_pos none) some
        · rw [if_neg none]
          exact word (by rw [capAuthSasl] at none; omega)
      exact again

theorem wordsInside_of_acked (words : (link.ackedLink server oracles).WordsInside) : link.WordsInside := by
  unfold ackedLink at words
  cases enabled : server.saslEnabled with
  | false =>
      rw [enabled] at words
      exact words
  | true =>
      rw [enabled] at words
      have again : (link.testWord capAuthSasl).WordsInside := words
      unfold testWord at again
      exact ((wordsInside_readWords _ _).mp again).1

/-- A link that was answered is ready for the authentication. -/
theorem ready_acked (fresh : Fresh link) (secure : link.securityCheck server = true)
    (checked : link.capsOutside = false)
    (short : link.linkMess.length < 2 ^ 32)
    (word : link.numCommonCaps + link.numChannelCaps = 2 ^ 32 -> link.capsOffset + 4 ≤ link.linkMess.length) :
    Ready server (link.testedLink.ackedLink server oracles) := by
  have same : SameBesides link (link.testedLink.ackedLink server oracles) := sameBesides_tested.trans sameBesides_acked
  have first : link.testedLink.numCommonCaps ≠ 0 ->
      link.testedLink.capsOffset + 4 ≤ link.testedLink.linkMess.length := by
    unfold numCommonCaps capsOffset field
    rw [sameBesides_tested.linkMess]
    exact (tested_words_iff checked).mpr word
  refine ⟨(securityCheck_congr same.linkMess same.isSsl).trans secure,
    (capsOutside_congr same.linkMess).trans checked, ?_, ?_,
    same.linked.trans fresh.unlinked, same.frees.trans fresh.unfreed⟩
  · rw [same.linkMess]
    exact short
  · exact wordsInside_acked ((wordsInside_tested fresh checked).mpr word) first

theorem hasKey_acked (noKey : link.hasKey = false) (acknowledged : link.acknowledged server oracles = true) :
    (link.ackedLink server oracles).hasKey = !link.withoutKey server oracles := by
  unfold RedLinkInfo.acknowledged at acknowledged
  show (link.hasKey || (!link.withoutKey server oracles && oracles.keyGenerated)) = _
  rw [noKey]
  cases without : link.withoutKey server oracles with
  | true => rfl
  | false =>
      rw [without, Bool.false_or, Bool.and_eq_true] at acknowledged
      rw [acknowledged.2]
      rfl

/-- A mechanism is chosen. -/
theorem Ready.chooseAuth (ready : Ready server link) (selection : Bool)
    (key : server.saslEnabled = false -> link.hasKey = true)
    (allowed : selection = true ∨ server.saslEnabled = false ∨ (link.skipAuth = true ∧ link.hasKey = true)) :
    Goes server oracles (link.chooseAuth server selection) := by
  unfold RedLinkInfo.chooseAuth RedLinkInfo.getSpiceTicket
  cases selection with
  | true =>
      rw [if_pos rfl]
      exact ready.asyncRead (by decide) (by decide) (fun awaited => nomatch awaited) (fun _ => key)
  | false =>
      have without := allowed.resolve_left (by decide)
      have hasKey : link.hasKey = true := by
        rcases without with disabled | skipped
        · exact key disabled
        · exact skipped.2
      have asked : server.saslEnabled = false ∨ link.skipAuth = true := without.imp_right And.left
      have goesOn : ¬ (server.saslEnabled && !link.skipAuth) = true := by
        rcases asked with disabled | skipped
        · rw [disabled, Bool.false_and]
          decide
        · rw [skipped, Bool.not_true, Bool.and_false]
          decide
      rw [if_neg (by decide), if_neg goesOn, if_pos hasKey]
      exact ready.asyncRead (by decide) (by decide) (fun _ => asked) (fun awaited => nomatch awaited)

/-- The choice was safe only if it was allowed. -/
theorem chooseAuth_safe {selection : Bool} (unfreed : link.frees = 0)
    (stepped : link.chooseAuth server selection = some next) (safe : LinksSafely server oracles next) :
    link.WordsInside ∧
      (selection = true ∨ server.saslEnabled = false ∨ (link.skipAuth = true ∧ link.hasKey = true)) := by
  unfold RedLinkInfo.chooseAuth at stepped
  cases selection with
  | true =>
      cases stepped
      exact ⟨safe.words, .inl rfl⟩
  | false =>
      rw [if_neg (by decide)] at stepped
      split at stepped
      · cases stepped
        exact absurd safe (not_safe_abandon unfreed)
      · rename_i asked
        unfold RedLinkInfo.getSpiceTicket RedLinkInfo.asyncRead at stepped
        cases key : link.hasKey with
        | false =>
            rw [key] at stepped
            cases stepped
        | true =>
            rw [key] at stepped
            cases stepped
            refine ⟨safe.words, .inr ?_⟩
            cases enabled : server.saslEnabled with
            | false => exact .inl rfl
            | true =>
                rw [enabled, Bool.true_and, Bool.not_eq_true, Bool.not_eq_false'] at asked
                exact .inr ⟨asked, rfl⟩

theorem hasKey_tested (fresh : Fresh link) (acknowledged : link.acknowledged server oracles = true) :
    (link.testedLink.ackedLink server oracles).hasKey = !link.withoutKey server oracles := by
  have noKey : link.testedLink.hasKey = false := by
    dsimp only [testedLink, testWord, readWords]
    exact fresh.noKey
  have same : SameBesides link link.testedLink := sameBesides_tested
  rw [hasKey_acked noKey ((acknowledged_congr same.linkMess).trans acknowledged), withoutKey_congr same.linkMess]

theorem key_iff (fresh : Fresh link) (acknowledged : link.acknowledged server oracles = true) :
    (server.saslEnabled = false ∨ (link.skipAuth = true ∧ (link.testedLink.ackedLink server oracles).hasKey = true)) <->
      (server.saslEnabled = false ∨ (link.skipAuth = true ∧ link.testCapability oracles capAuthSasl = false)) := by
  rw [hasKey_tested fresh acknowledged]
  unfold withoutKey
  cases server.saslEnabled with
  | false => exact ⟨fun _ => .inl rfl, fun _ => .inl rfl⟩
  | true => rw [Bool.true_and, Bool.not_eq_true']

theorem sendLinkAck_tested (known : link.knownChannel server = true ∨ link.channelType = channelMain) :
    link.testedLink.sendLinkAck server oracles =
      some (link.testedLink.ackedLink server oracles, link.acknowledged server oracles) := by
  have same : SameBesides link link.testedLink := sameBesides_tested
  rw [<- knownChannel_congr same.linkMess, <- channelType_congr same.linkMess] at known
  rw [sendLinkAck_eq known, acknowledged_congr same.linkMess]

/-- The link message was read. -/
theorem Fresh.handleReadLinkDone (fresh : Fresh link) (short : link.linkMess.length < 2 ^ 32)
    (allowed : link.MessageAllowed server oracles) : Goes server oracles (link.handleReadLinkDone server oracles) := by
  unfold RedLinkInfo.handleReadLinkDone
  by_cases outside : link.capsOutside = true
  · rw [if_pos outside]
    have replied : Fresh (link.reply .invalidData) := ⟨fresh.unread, fresh.unlinked, fresh.unfreed, fresh.noKey⟩
    exact .of_ended rfl replied.freed
  · have checked := Bool.eq_false_iff.mpr outside
    obtain ⟨word, further⟩ := allowed checked
    have tested : SameBesides link link.testedLink := sameBesides_tested
    rw [if_neg outside]
    by_cases secure : link.securityCheck server = true
    · obtain ⟨known, chosen⟩ := further secure
      have ready : Ready server (link.testedLink.ackedLink server oracles) :=
        ready_acked fresh secure checked short word
      have same : SameBesides link (link.testedLink.ackedLink server oracles) := tested.trans sameBesides_acked
      rw [if_pos secure, sendLinkAck_tested known]
      cases acknowledged : link.acknowledged server oracles with
      | false => exact .of_ended rfl ready.freed
      | true =>
          refine ready.chooseAuth _ (fun disabled => ?_) ?_
          · rw [hasKey_tested fresh acknowledged, withoutKey, disabled, Bool.false_and, Bool.not_false]
          · rw [same.skipAuth]
            exact (chosen acknowledged).imp_right (key_iff fresh acknowledged).mpr
    · rw [if_neg secure]
      have words := (wordsInside_tested fresh checked).mpr word
      exact .of_ended rfl (replied_freed words (tested.linked.trans fresh.unlinked)
        (tested.frees.trans fresh.unfreed) _)

/-- It was safe only if it was allowed. -/
theorem Fresh.messageAllowed (fresh : Fresh link)
    (stepped : link.handleReadLinkDone server oracles = some next) (safe : LinksSafely server oracles next) :
    link.MessageAllowed server oracles := by
  intro checked
  have tested : SameBesides link link.testedLink := sameBesides_tested
  unfold RedLinkInfo.handleReadLinkDone at stepped
  rw [if_neg (by rw [checked]; decide)] at stepped
  by_cases secure : link.securityCheck server = true
  · rw [if_pos secure] at stepped
    have known : link.knownChannel server = true ∨ link.channelType = channelMain := by
      by_contra unknown
      rw [not_or, Bool.not_eq_true, <- knownChannel_congr tested.linkMess,
        <- channelType_congr tested.linkMess] at unknown
      have failed : link.testedLink.sendLinkAck server oracles = none := if_pos unknown
      rw [failed] at stepped
      cases stepped
    rw [sendLinkAck_tested known] at stepped
    have same : SameBesides link (link.testedLink.ackedLink server oracles) := tested.trans sameBesides_acked
    cases acknowledged : link.acknowledged server oracles with
    | false =>
        rw [acknowledged] at stepped
        have isFreed : (link.testedLink.ackedLink server oracles).free = next := Option.some.inj stepped
        rw [<- isFreed] at safe
        have ackedWords : (link.testedLink.ackedLink server oracles).WordsInside := words_of_freed safe
        have words := wordsInside_of_acked ackedWords
        exact ⟨(wordsInside_tested fresh checked).mp words, fun _ => ⟨known, fun impossible => nomatch impossible⟩⟩
    | true =>
        rw [acknowledged] at stepped
        obtain ⟨ackedWords, chosen⟩ := chooseAuth_safe (same.frees.trans fresh.unfreed) stepped safe
        have words := wordsInside_of_acked ackedWords
        refine ⟨(wordsInside_tested fresh checked).mp words, fun _ => ⟨known, fun _ => ?_⟩⟩
        rw [same.skipAuth] at chosen
        exact chosen.imp_right (key_iff fresh acknowledged).mp
  · rw [if_neg secure] at stepped
    have isFreed := Option.some.inj stepped
    rw [<- isFreed] at safe
    have words := words_of_replied_freed safe
    exact ⟨(wordsInside_tested fresh checked).mp words, fun impossible => absurd impossible secure⟩

/-! ## Runs -/

/-- The bytes of any stage were read. -/
theorem Underway.readDone (underway : Underway server oracles link) {data : List UInt8}
    (awaited : data.length = link.awaited) (allowed : link.ReadAllowed server oracles data) :
    Goes server oracles (link.readDone server oracles data) := by
  have readyOf := underway.ready
  unfold RedLinkInfo.ReadAllowed at allowed
  unfold RedLinkInfo.readDone
  cases wait : link.wait <;> rw [wait] at allowed readyOf
  case readHeaderDone => exact (underway.starts (.inl wait)).handleReadHeaderDone data
  case readLinkDone =>
    have fresh := underway.starts (.inr wait)
    have received : Fresh { link with wait := .readLinkDone, linkMess := data } :=
      ⟨fresh.unread, fresh.unlinked, fresh.unfreed, fresh.noKey⟩
    refine received.handleReadLinkDone ?_ allowed
    show data.length < 2 ^ 32
    rw [awaited]
    exact underway.short wait
  case authMechanism => exact (readyOf (by decide) (by decide) (by decide)).handleAuthMechanism (underway.key wait) _
  case ticket => exact (readyOf (by decide) (by decide) (by decide)).handleTicket (underway.ticket wait) allowed
  case authMechlen => exact (readyOf (by decide) (by decide) (by decide)).handleAuthMechlen _
  case authMechname =>
    exact (readyOf (by decide) (by decide) (by decide)).handleAuthMechname ((mechnameAccepted_iff _).mpr allowed)
  case authStartlen => exact (readyOf (by decide) (by decide) (by decide)).handleAuthStartlen allowed
  case authSaslStart => exact (readyOf (by decide) (by decide) (by decide)).handleAuthSasl (by decide) allowed
  case authSaslSteplen => exact (readyOf (by decide) (by decide) (by decide)).handleAuthSaslSteplen allowed
  case authSaslStep => exact (readyOf (by decide) (by decide) (by decide)).handleAuthSasl (by decide) allowed
  case ended => exact ⟨link, rfl, underway⟩

/-- They were safe only if they were allowed. -/
theorem Underway.readAllowed (underway : Underway server oracles link) {data : List UInt8}
    (stepped : link.readDone server oracles data = some next) (safe : LinksSafely server oracles next) :
    link.ReadAllowed server oracles data := by
  have readyOf := underway.ready
  unfold RedLinkInfo.readDone at stepped
  unfold RedLinkInfo.ReadAllowed
  cases wait : link.wait <;> rw [wait] at stepped readyOf <;> dsimp only at stepped ⊢
  case readLinkDone =>
    have fresh := underway.starts (.inr wait)
    have received : Fresh { link with wait := .readLinkDone, linkMess := data } :=
      ⟨fresh.unread, fresh.unlinked, fresh.unfreed, fresh.noKey⟩
    exact received.messageAllowed stepped safe
  case ticket =>
    intro accepted
    cases stepped
    unfold RedLinkInfo.handleTicket at safe
    rw [if_pos accepted] at safe
    exact (((readyOf (by decide) (by decide) (by decide)).handleLink_iff _).mp safe).2
  case authMechname =>
    exact (mechnameAccepted_iff _).mp ((readyOf (by decide) (by decide) (by decide)).mechnameAccepted stepped safe)
  case authStartlen =>
    intro empty
    rw [empty] at stepped
    exact (readyOf (by decide) (by decide) (by decide)).saslAllowed (by decide) stepped safe
  case authSaslStart => exact (readyOf (by decide) (by decide) (by decide)).saslAllowed (by decide) stepped safe
  case authSaslSteplen =>
    intro empty
    rw [empty] at stepped
    exact (readyOf (by decide) (by decide) (by decide)).saslAllowed (by decide) stepped safe
  case authSaslStep => exact (readyOf (by decide) (by decide) (by decide)).saslAllowed (by decide) stepped safe

theorem Underway.closed (underway : Underway server oracles link) (underwayStill : link.wait ≠ .ended) :
    LinksSafely server oracles link.free := by
  by_cases early : link.wait = .readHeaderDone ∨ link.wait = .readLinkDone
  · exact (underway.starts early).freed
  · exact (underway.ready underwayStill (fun header => early (.inl header)) (fun message => early (.inr message))).freed

/-- An event that is allowed leaves the link safe. -/
theorem Underway.step (underway : Underway server oracles link) {event : Event}
    (allowed : link.Allowed server oracles event) :
    Goes server oracles (link.step server oracles event) := by
  by_cases ended : link.wait = .ended
  · refine ⟨link, ?_, underway⟩
    cases event with
    | byte value => exact if_pos ended
    | closed => exact if_pos ended
  · cases event with
    | byte value =>
        unfold RedLinkInfo.step
        dsimp only
        rw [if_neg ended]
        by_cases complete : link.received.length + 1 = link.awaited
        · rw [if_pos complete]
          refine underway.readDone ?_ (allowed complete)
          rw [List.length_append, List.length_singleton, complete]
        · rw [if_neg complete]
          refine ⟨_, rfl, fun impossible => absurd impossible ended, fun early => ?_, underway.short,
            fun _ header message => ?_,
            underway.ticket, underway.key⟩
          · have fresh := underway.starts early
            exact ⟨fresh.unread, fresh.unlinked, fresh.unfreed, fresh.noKey⟩
          · have ready := underway.ready ended header message
            exact ready.transfer ⟨rfl, rfl, rfl, rfl, rfl⟩
    | closed =>
        unfold RedLinkInfo.step
        dsimp only
        rw [if_neg ended]
        exact .of_ended rfl (underway.closed ended)

/-- An event that leaves it safe was allowed. -/
theorem Underway.allowed (underway : Underway server oracles link) {event : Event}
    (stepped : link.step server oracles event = some next) (safe : LinksSafely server oracles next) :
    link.Allowed server oracles event := by
  cases event with
  | closed => trivial
  | byte value =>
      intro complete
      unfold RedLinkInfo.step at stepped
      dsimp only at stepped
      by_cases ended : link.wait = .ended
      · unfold RedLinkInfo.ReadAllowed
        rw [ended]
        trivial
      · rw [if_neg ended, if_pos complete] at stepped
        exact underway.readAllowed stepped safe

theorem Underway.new (skipAuth isSsl : Bool) : Underway server oracles (RedLinkInfo.new skipAuth isSsl) where
  ended := fun impossible => nomatch impossible
  starts := fun _ => ⟨rfl, rfl, rfl, rfl⟩
  short := fun impossible => nomatch impossible
  ready := fun _ header => absurd rfl header
  ticket := fun impossible => nomatch impossible
  key := fun impossible => nomatch impossible

end RedLinkInfo

end Link
end Spice

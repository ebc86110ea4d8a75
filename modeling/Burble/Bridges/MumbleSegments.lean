import Burble.Bridges.MumbleBridge
import Burble.Framing

namespace Burble.Bridges

/-- The messages that are handled of one piece. -/
def messagesIn (data : List UInt8) : List ControlMessage :=
  match taken : takeMessage data with
  | none => []
  | some (message, rest) =>
    have : rest.length < data.length := takeMessage_shorter taken
    message :: if rest.length > 6 then messagesIn rest else []
termination_by data.length

section Messages
variable {data rest : List UInt8} {message : ControlMessage}

theorem ControlMessage.bytes_length (message : ControlMessage) : message.bytes.length = 6 + message.payload.length := by
  simp only [bytes, List.length_append, bigEndian_length]

theorem takeMessage_bytes (message : ControlMessage) (rest : List UInt8) :
    takeMessage (message.bytes ++ rest) = some (message, rest) := by
  have front : message.bytes ++ rest =
      bigEndian 2 message.msgType ++ (bigEndian 4 message.payload.length ++ (message.payload ++ rest)) := by
    simp only [ControlMessage.bytes, List.append_assoc]
  have type : ofBigEndian ((message.bytes ++ rest).take 2) = message.msgType := by
    rw [front, List.take_left' (bigEndian_length _ _), ofBigEndian_of_lt message.typeFits]
  have size : ofBigEndian (((message.bytes ++ rest).drop 2).take 4) = message.payload.length := by
    rw [front, List.drop_left' (bigEndian_length _ _), List.take_left' (bigEndian_length _ _), ofBigEndian_of_lt message.lengthFits]
  have after : (message.bytes ++ rest).drop 6 = message.payload ++ rest := by
    rw [ControlMessage.bytes, List.append_assoc, List.drop_left' (by simp only [List.length_append, bigEndian_length])]
  have whole : 6 ≤ (message.bytes ++ rest).length ∧ message.payload.length ≤ (message.payload ++ rest).length := by
    rw [List.length_append, message.bytes_length, List.length_append]
    omega
  unfold takeMessage
  simp only [type, size, after]
  rw [dif_pos whole]
  simp only [List.take_left, List.drop_left]

theorem takeMessage_sound (taken : takeMessage data = some (message, rest)) : data = message.bytes ++ rest := by
  unfold takeMessage at taken
  dsimp only at taken
  split at taken
  next whole =>
    cases taken
    have size : ((data.drop 6).take (ofBigEndian ((data.drop 2).take 4))).length = ofBigEndian ((data.drop 2).take 4) :=
      List.length_take_of_le whole.2
    have type : bigEndian 2 (ofBigEndian (data.take 2)) = data.take 2 :=
      bigEndian_ofBigEndian (List.length_take_of_le (by omega))
    have header : bigEndian 4 (ofBigEndian ((data.drop 2).take 4)) = (data.drop 2).take 4 :=
      bigEndian_ofBigEndian (List.length_take_of_le (by rw [List.length_drop]; omega))
    rw [ControlMessage.bytes, size, type, header, List.append_assoc, List.append_assoc, List.take_append_drop]
    rw [show data.drop 6 = (data.drop 2).drop 4 by rw [List.drop_drop], List.take_append_drop, List.take_append_drop]
  next => cases taken

theorem controlMessage_codec : Codec (fun message data => data = message.bytes)
    fun data message rest => takeMessage data = some (message, rest) where
  complete := by
    rintro message _ rfl rest
    exact takeMessage_bytes message rest
  sound taken := ⟨_, rfl, takeMessage_sound taken⟩
  unique taken again := by
    cases taken.symm.trans again
    exact ⟨rfl, rfl⟩

theorem controlMessage_framing : Framing ControlMessage.bytes :=
  controlMessage_codec.framing fun message none => by
    have long := message.bytes_length
    rw [none, List.length_nil] at long
    omega

end Messages

/-- Only a last message without a payload is dropped behind others. -/
def LastFilled (messages : List ControlMessage) : Prop := 2 ≤ messages.length → ∀ last ∈ messages.getLast?, last.payload ≠ []

/-- A piece that is all handled: it is made of whole messages, and is a single one or does not end with an empty one. -/
def WholeMessages (chunk : List UInt8) : Prop := ∃ messages, chunk = messages.flatMap ControlMessage.bytes ∧ LastFilled messages

/-- The bridge gets through all the pieces as it does through the messages one by one. -/
def Unsegmented (bridge : MumbleBridge) (messages : List ControlMessage) (chunks : List (List UInt8)) : Prop :=
  ∃ after, chunks.foldlM MumbleBridge.handleMumbleMessage bridge = some after ∧
    messages.foldlM MumbleBridge.handleControlMessage bridge = some after

section Pieces
variable {data rest : List UInt8} {message : ControlMessage} {messages : List ControlMessage} {bridge after : MumbleBridge}

theorem messagesIn_none (none : takeMessage data = none) : messagesIn data = [] := by
  rw [messagesIn]
  split
  next => rfl
  next taken => cases none.symm.trans taken

theorem messagesIn_some (some : takeMessage data = some (message, rest)) :
    messagesIn data = message :: if rest.length > 6 then messagesIn rest else [] := by
  rw [messagesIn]
  split
  next taken => cases some.symm.trans taken
  next taken =>
    cases some.symm.trans taken
    rfl

/-- A piece is handled as the messages that are found in it. -/
theorem handleMumbleMessage_eq (bridge : MumbleBridge) (data : List UInt8) :
    bridge.handleMumbleMessage data = (messagesIn data).foldlM MumbleBridge.handleControlMessage bridge := by
  induction data using messagesIn.induct generalizing bridge with
  | case1 data none =>
    rw [messagesIn_none none, MumbleBridge.handleMumbleMessage]
    split
    next => rfl
    next taken => cases none.symm.trans taken
  | case2 data message rest taken shorter ih =>
    rw [messagesIn_some taken, List.foldlM_cons, MumbleBridge.handleMumbleMessage]
    split
    next none => cases none.symm.trans taken
    next again =>
      cases taken.symm.trans again
      refine Option.bind_congr fun state _ => ?_
      split
      next => exact ih state
      next => rfl

theorem messagesIn_front (data : List UInt8) : (messagesIn data).flatMap ControlMessage.bytes <+: data := by
  induction data using messagesIn.induct with
  | case1 data none =>
    rw [messagesIn_none none]
    exact List.nil_prefix
  | case2 data message rest taken shorter ih =>
    rw [messagesIn_some taken, List.flatMap_cons, takeMessage_sound taken]
    refine (List.prefix_append_right_inj _).mpr ?_
    split
    next => exact ih
    next => exact List.nil_prefix

theorem LastFilled.tail (filled : LastFilled (message :: messages)) : LastFilled messages := by
  intro long last member
  refine filled (by rw [List.length_cons]; omega) last ?_
  cases messages with
  | nil => cases member
  | cons next messages => exact member

/-- Behind another message, all that are left are handled unless only an empty one is. -/
theorem LastFilled.long_iff (filled : LastFilled (message :: messages)) :
    (messages.flatMap ControlMessage.bytes).length > 6 ↔ messages ≠ [] := by
  rcases messages with _ | ⟨next, _ | ⟨third, messages⟩⟩
  · simp
  · have payload := filled (by simp) next rfl
    have long := List.length_pos_iff.mpr payload
    simp only [List.flatMap_cons, List.flatMap_nil, List.append_nil, next.bytes_length]
    simp only [ne_eq, reduceCtorEq, not_false_eq_true, iff_true]
    omega
  · simp only [List.flatMap_cons, List.length_append, next.bytes_length, third.bytes_length]
    simp only [ne_eq, reduceCtorEq, not_false_eq_true, iff_true]
    omega

theorem LastFilled.cons (filled : LastFilled messages) (long : (messages.flatMap ControlMessage.bytes).length > 6) :
    LastFilled (message :: messages) := by
  intro many last member
  rcases messages with _ | ⟨next, _ | ⟨third, messages⟩⟩
  · exact absurd many (by simp)
  · cases member
    rw [List.flatMap_cons, List.flatMap_nil, List.append_nil, next.bytes_length] at long
    have positive : 0 < next.payload.length := by omega
    exact List.length_pos_iff.mp positive
  · exact filled (by simp) last member

theorem messagesIn_bytes (filled : LastFilled messages) : messagesIn (messages.flatMap ControlMessage.bytes) = messages := by
  induction messages with
  | nil => exact messagesIn_none rfl
  | cons message messages ih =>
    rw [List.flatMap_cons, messagesIn_some (takeMessage_bytes message _)]
    by_cases last : messages = []
    · subst last
      rfl
    · rw [if_pos (filled.long_iff.mpr last), ih filled.tail]

/-- What is left of a piece is handled if it is more than a header. -/
theorem lastFilled_messagesIn (all : (messagesIn data).flatMap ControlMessage.bytes = data) : LastFilled (messagesIn data) := by
  induction data using messagesIn.induct with
  | case1 data none =>
    rw [messagesIn_none none]
    exact fun many => absurd many (by simp)
  | case2 data message rest taken shorter ih =>
    rw [messagesIn_some taken] at all ⊢
    split at all
    next long =>
      rw [if_pos long]
      rw [List.flatMap_cons, takeMessage_sound taken] at all
      have later := List.append_cancel_left all
      exact (ih later).cons (by rwa [later])
    next short =>
      rw [if_neg short]
      exact fun many => absurd many (by simp)

theorem whole_iff (chunk : List UInt8) : (messagesIn chunk).flatMap ControlMessage.bytes = chunk ↔ WholeMessages chunk := by
  constructor
  · intro all
    exact ⟨_, all.symm, lastFilled_messagesIn all⟩
  · rintro ⟨messages, rfl, filled⟩
    rw [messagesIn_bytes filled]

/-- A bridge that gets through messages has handled each of them. -/
theorem handled_messages (done : messages.foldlM MumbleBridge.handleControlMessage bridge = some after) :
    after.handled = bridge.handled ++ messages := by
  induction messages generalizing bridge with
  | nil =>
    cases done
    exact (List.append_nil _).symm
  | cons message messages ih =>
    rw [List.foldlM_cons] at done
    obtain ⟨next, first, later⟩ := Option.bind_eq_some_iff.mp done
    rcases bridge.handleControlMessage_cases message with ⟨_, raised⟩ | ⟨_, other, handled, recorded⟩
    · cases raised.symm.trans first
    · cases handled.symm.trans first
      rw [ih later, recorded, List.append_assoc, List.singleton_append]

theorem survives_iff : (∃ after, messages.foldlM MumbleBridge.handleControlMessage bridge = some after) ↔
    ∀ message ∈ messages, ¬ message.Raises := by
  induction messages generalizing bridge with
  | nil => exact iff_of_true ⟨_, rfl⟩ fun _ none => absurd none List.not_mem_nil
  | cons message messages ih =>
    rw [List.foldlM_cons, List.forall_mem_cons]
    rcases bridge.handleControlMessage_cases message with ⟨raises, raised⟩ | ⟨quiet, next, handled, _⟩
    · rw [raised]
      exact iff_of_false nofun fun both => both.1 raises
    · rw [handled, Option.bind_eq_bind, Option.bind_some, and_iff_right quiet]
      exact ih

theorem foldlM_pieces (chunks : List (List UInt8)) (bridge : MumbleBridge) :
    chunks.foldlM MumbleBridge.handleMumbleMessage bridge =
      (chunks.flatMap messagesIn).foldlM MumbleBridge.handleControlMessage bridge := by
  induction chunks generalizing bridge with
  | nil => rfl
  | cons chunk chunks ih =>
    rw [List.foldlM_cons, List.flatMap_cons, List.foldlM_append, handleMumbleMessage_eq]
    exact bind_congr ih

end Pieces

/-- The bridge gets through what it receives as it does through the messages one by one exactly where every piece holds whole
messages, none of several in a piece is an empty one at its end, and no packet of voice is empty. -/
theorem mumble_unsegmented_iff (bridge : MumbleBridge) (messages : List ControlMessage) (chunks : List (List UInt8))
    (stream : chunks.flatten = messages.flatMap ControlMessage.bytes) :
    Unsegmented bridge messages chunks ↔
      (∀ chunk ∈ chunks, WholeMessages chunk) ∧ ∀ message ∈ messages, ¬ message.Raises := by
  have whole : chunks.flatMap messagesIn = messages ↔ ∀ chunk ∈ chunks, WholeMessages chunk := by
    rw [controlMessage_framing.all_read_iff messagesIn_front stream]
    exact forall₂_congr fun chunk _ => whole_iff chunk
  rw [Unsegmented, foldlM_pieces, ← whole]
  constructor
  · rintro ⟨after, pieces, one⟩
    have same := (handled_messages pieces).symm.trans (handled_messages one)
    exact ⟨List.append_cancel_left same, survives_iff.mp ⟨after, one⟩⟩
  · rintro ⟨same, quiet⟩
    rw [same]
    obtain ⟨after, done⟩ := survives_iff.mpr quiet
    exact ⟨after, done, done⟩

/-- A user with session id 5 joins. -/
def userJoins : ControlMessage := ⟨msgUserState, [0x08, 0x05], by decide, by decide⟩

theorem mumble_unsegmented_join : Unsegmented (.init "room" []) [userJoins] [[0, 9, 0, 0, 0, 2, 0x08, 0x05]] ↔
    (∀ chunk ∈ [[0, 9, 0, 0, 0, 2, 0x08, 0x05]], WholeMessages chunk) ∧ ∀ message ∈ [userJoins], ¬ message.Raises :=
  mumble_unsegmented_iff _ _ _ rfl

/-- A message that is received in two pieces is lost. -/
theorem split_join_lost : [[0, 9, 0, 0, 0, 2], [0x08, 0x05]].flatten = [userJoins].flatMap ControlMessage.bytes ∧
    [[0, 9, 0, 0, 0, 2], [0x08, 0x05]].foldlM MumbleBridge.handleMumbleMessage (.init "room" []) = some (.init "room" []) ∧
    (∃ after, [userJoins].foldlM MumbleBridge.handleControlMessage (.init "room" []) = some after ∧ 5 ∈ after.mumbleUsers) ∧
    ¬ Unsegmented (.init "room" []) [userJoins] [[0, 9, 0, 0, 0, 2], [0x08, 0x05]] := by
  have nothing : [[0, 9, 0, 0, 0, 2], [0x08, 0x05]].foldlM MumbleBridge.handleMumbleMessage (.init "room" []) =
      some (.init "room" []) := by
    rw [foldlM_pieces, List.flatMap_cons, List.flatMap_cons, messagesIn_none rfl, messagesIn_none rfl]
    rfl
  have joined : decodeVarintField userJoins.payload 1 = some 5 := by
    unfold decodeVarintField decodeField
    rfl
  refine ⟨rfl, nothing, ⟨_, rfl, ?_⟩, ?_⟩
  · change 5 ∈ (MumbleBridge.handleUserState userJoins.payload (.init "room" [])).mumbleUsers
    rw [MumbleBridge.handleUserState, joined]
    exact (AList.mem_insert _).mpr (.inl rfl)
  · rintro ⟨after, pieces, one⟩
    cases nothing.symm.trans pieces
    exact absurd (handled_messages one) (by decide)

end Burble.Bridges

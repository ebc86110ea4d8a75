import Mathlib
import Burble.Client.Phoenix

namespace Burble.Client

/-- A non-reply frame of a topic. -/
def Frame.isOf (topic : String) (frame : Frame) : Bool := frame.event ≠ "phx_reply" && frame.topic = topic

section Lists
variable {Item : Type}

theorem take_prefix_filter_iff (items : List Item) (keep : Item → Bool) (count : Nat) :
    items.take count <+: items.filter keep ↔ ∀ item ∈ items.take count, keep item = true := by
  constructor
  · intro isPrefix item member
    exact (List.mem_filter.mp (isPrefix.subset member)).2
  · intro all
    have same : (items.take count).filter keep = items.take count := List.filter_eq_self.mpr all
    rw [← same]
    exact (List.take_prefix count items).filter keep

/-- The refs in the order they are taken. -/
def numbering (count : Nat) : List String := (List.range count).map fun place => toString ((place + 1) % 2 ^ 64)

theorem numbering_succ (count : Nat) : numbering (count + 1) = numbering count ++ [toString ((count + 1) % 2 ^ 64)] := by
  simp [numbering, List.range_succ]

theorem numbering_length (count : Nat) : (numbering count).length = count := by simp [numbering]

theorem numbering_nodup_iff (count : Nat) : (numbering count).Nodup ↔ count ≤ 2 ^ 64 := by
  constructor
  · intro nodup
    by_contra more
    have first : (numbering count)[0]? = some (toString (1 % 2 ^ 64)) := by
      rw [numbering, List.getElem?_map, List.getElem?_range (by omega)]
      rfl
    have again : (numbering count)[2 ^ 64]? = some (toString (1 % 2 ^ 64)) := by
      rw [numbering, List.getElem?_map, List.getElem?_range (by omega)]
      simp
    have same := (List.nodup_iff_getElem?_ne_getElem?.mp nodup) 0 (2 ^ 64) (by decide) (by rw [numbering_length]; omega)
    exact same (first.trans again.symm)
  · intro few
    refine List.Nodup.map_on (fun one isOne other isOther same => ?_) List.nodup_range
    have remainder := Nat.repr_injective same
    rw [List.mem_range] at isOne isOther
    omega

end Lists

/-- A frame as one of the four things it can be to a client. -/
inductive Classifies (client : PhoenixClient) (frame : Frame) : Classified → PhoenixClient → Prop
  | heartbeat (isReply : frame.event = "phx_reply") :
      Classifies client frame .consumed { client with heartbeatRef := none }
  | reply (ref : String) (isReply : frame.event = "phx_reply") (own : frame.msgRef = some ref) :
      Classifies client frame (.reply ref (replyResponse frame.payload)) client
  | elsewhere (topic : String) (noReply : frame.event ≠ "phx_reply") (joined : client.topic = some topic)
      (different : frame.topic ≠ topic) : Classifies client frame .consumed client
  | mine (noReply : frame.event ≠ "phx_reply") (own : ∀ topic, client.topic = some topic → frame.topic = topic) :
      Classifies client frame (.broadcast frame.broadcast) client

theorem classify_spec (client : PhoenixClient) {frame : Frame} (wellFormed : frame.WellFormed) :
    ∃ classified after, client.classify frame = (.ok classified, after) ∧ Classifies client frame classified after := by
  obtain ⟨noError, noClose, hasRef⟩ := wellFormed
  by_cases isReply : frame.event = "phx_reply"
  · obtain ⟨ref, own⟩ := Option.isSome_iff_exists.mp (hasRef isReply)
    by_cases heartbeat : client.heartbeatRef = frame.msgRef
    · exact ⟨_, _, by rw [PhoenixClient.classify, if_pos isReply, if_pos ⟨hasRef isReply, heartbeat⟩], .heartbeat isReply⟩
    · refine ⟨_, _, ?_, .reply ref isReply own⟩
      rw [PhoenixClient.classify, if_pos isReply, if_neg fun both => heartbeat both.2, own]
  · have classified : client.classify frame =
        if client.topic.any fun joined => joined ≠ frame.topic then (.ok .consumed, client)
        else (.ok (.broadcast frame.broadcast), client) := by
      rw [PhoenixClient.classify, if_neg isReply, if_neg noError, if_neg noClose]
    cases joined : client.topic with
    | none =>
      rw [joined, Option.any_none, if_neg Bool.false_ne_true] at classified
      exact ⟨_, _, classified, .mine isReply fun topic other => by cases joined.symm.trans other⟩
    | some topic =>
      by_cases own : frame.topic = topic
      · rw [joined, Option.any_some, if_neg (by simp [own])] at classified
        refine ⟨_, _, classified, .mine isReply fun other same => ?_⟩
        cases joined.symm.trans same
        exact own
      · rw [joined, Option.any_some, if_pos (by simpa using Ne.symm own)] at classified
        exact ⟨_, _, classified, .elsewhere topic isReply joined own⟩

/-- What has been classified as a broadcast of a topic that is, or may yet be, joined is what has
been received of it. -/
def Filtered (joined : Option String) (delivered received : List Frame) : Prop :=
  ∀ topic, (joined = none ∨ joined = some topic) →
    delivered.filter (fun frame => decide (frame.topic = topic)) = received.filter (Frame.isOf topic)

namespace Filtered
variable {joined : Option String} {delivered received : List Frame} {frame : Frame}

theorem skip (filtered : Filtered joined delivered received)
    (foreign : ∀ topic, (joined = none ∨ joined = some topic) → frame.isOf topic = false) :
    Filtered joined delivered (received ++ [frame]) := by
  intro topic relevant
  rw [filtered topic relevant, List.filter_append]
  simp [foreign topic relevant]

theorem add (filtered : Filtered joined delivered received) (noReply : frame.event ≠ "phx_reply") :
    Filtered joined (delivered ++ [frame]) (received ++ [frame]) := by
  intro topic relevant
  rw [List.filter_append, List.filter_append, filtered topic relevant]
  by_cases own : frame.topic = topic <;> simp [Frame.isOf, noReply, own]

/-- Joining a topic, or staying with what is joined. -/
theorem rejoin {topic : Option String} (filtered : Filtered joined delivered received)
    (settled : topic = joined ∨ joined = none) : Filtered topic delivered received := by
  rcases settled with rfl | rfl
  · exact filtered
  · exact fun other _ => filtered other (.inl rfl)

end Filtered

/-- A call has returned what the reply to its own ref says. -/
def Answer.Own (received : List Frame) (answer : Answer) : Prop :=
  answer.reply ∈ received ∧ answer.reply.event = "phx_reply" ∧ answer.reply.msgRef = some answer.ref ∧
    answer.response = replyResponse answer.reply.payload

theorem Answer.Own.later {received : List Frame} {answer : Answer} (own : answer.Own received) (frame : Frame) :
    answer.Own (received ++ [frame]) := ⟨List.mem_append_left _ own.1, own.2⟩

theorem foreign_of_reply {frame : Frame} (isReply : frame.event = "phx_reply") (topic : String) :
    frame.isOf topic = false := by simp [Frame.isOf, isReply]

theorem foreign_of_elsewhere {frame : Frame} {joined : String} (different : frame.topic ≠ joined) (topic : String)
    (relevant : some joined = none ∨ some joined = some topic) : frame.isOf topic = false := by
  obtain rfl := Option.some.inj (relevant.resolve_left (by simp))
  simp [Frame.isOf, different]

namespace World

/-- The frames behind what `next_broadcast` has returned. -/
def returnedFrames (w : World) : List Frame := w.delivered.take w.returned.length

/-- What has been returned is the broadcasts of the joined topic in the order they came in, without a
gap, each answer is that of its own reply, and no ref has been taken twice. -/
structure Exact (w : World) : Prop where
  broadcasts : w.returned = w.returnedFrames.map Frame.broadcast
  unjoined : w.client.topic = none → w.returned = []
  joined : ∀ topic, w.client.topic = some topic → w.returnedFrames <+: w.received.filter (Frame.isOf topic)
  answers : ∀ answer ∈ w.answers, answer.Own w.received
  refs : w.refs.Nodup

/-- No broadcast is read before a topic is joined, `next_broadcast` does not come to a buffered frame
of another topic, and the refs do not run out. -/
def Careful (w : World) : Label → Prop
  | .join _ _ _ _ => w.client.topic = none → w.refs.length < 2 ^ 64
  | .push _ _ _ _ => w.client.topic ≠ none → w.refs.length < 2 ^ 64
  | .heartbeat _ _ => w.refs.length < 2 ^ 64
  | .nextBroadcast _ _ => ∀ frame, w.delivered[w.returned.length]? = some frame → w.client.topic = some frame.topic
  | .frame frame => w.activity.isListening = true → frame.event ≠ "phx_reply" → w.client.topic ≠ none
  | _ => True

structure Sound (w : World) : Prop where
  delivered : w.delivered.map Frame.broadcast = w.returned ++ w.client.pending
  filtered : Filtered w.client.topic w.delivered w.received
  listening : w.activity.isListening = true → w.client.pending = []
  joining : ∀ topic ref deadline, w.activity = .joining topic ref deadline → w.client.topic = none
  refs : w.refs = numbering w.refs.length
  nextRef : w.client.nextRef.toNat = w.refs.length % 2 ^ 64
  answers : ∀ answer ∈ w.answers, answer.Own w.received

/-- What is left of `Exact` besides what always holds. -/
def Tidy (w : World) : Prop := (∀ frame ∈ w.returnedFrames, w.client.topic = some frame.topic) ∧ w.refs.length ≤ 2 ^ 64

variable {w after : World}

theorem Sound.returned_le (sound : w.Sound) : w.returned.length ≤ w.delivered.length := by
  have lengths := congrArg List.length sound.delivered
  simp only [List.length_map, List.length_append] at lengths
  omega

theorem Sound.returned_eq (sound : w.Sound) : w.returned = w.returnedFrames.map Frame.broadcast := by
  rw [returnedFrames, List.map_take, sound.delivered, List.take_left']
  rfl

theorem Sound.exact_iff_tidy (sound : w.Sound) : w.Exact ↔ w.Tidy := by
  have refs : w.refs.Nodup ↔ w.refs.length ≤ 2 ^ 64 := by
    rw [sound.refs, numbering_nodup_iff, numbering_length]
  have isPrefix (topic : String) (joined : w.client.topic = some topic) :
      w.returnedFrames <+: w.received.filter (Frame.isOf topic) ↔ ∀ frame ∈ w.returnedFrames, frame.topic = topic := by
    rw [← sound.filtered topic (.inr joined), returnedFrames, take_prefix_filter_iff]
    simp only [decide_eq_true_eq]
  constructor
  · intro exact
    refine ⟨fun frame member => ?_, refs.mp exact.refs⟩
    cases topic : w.client.topic with
    | none =>
      have none := exact.unjoined topic
      rw [returnedFrames, none] at member
      exact absurd member List.not_mem_nil
    | some topic' => rw [(isPrefix _ topic).mp (exact.joined _ topic) frame member]
  · intro tidy
    refine ⟨sound.returned_eq, fun none => ?_, fun topic joined => (isPrefix topic joined).mpr fun frame member => ?_,
      sound.answers, refs.mpr tidy.2⟩
    · have empty : w.returnedFrames = [] := List.eq_nil_iff_forall_not_mem.mpr fun frame member => by
        cases none.symm.trans (tidy.1 frame member)
      rw [sound.returned_eq, empty, List.map_nil]
    · exact Option.some.inj ((tidy.1 frame member).symm.trans joined)

/-- The ref that is taken next, from the number of those taken. -/
theorem Sound.takeRef (sound : w.Sound) : w.client.takeRef.1 = toString ((w.refs.length + 1) % 2 ^ 64) ∧
    w.client.takeRef.2.nextRef.toNat = (w.refs.length + 1) % 2 ^ 64 := by
  have next : (w.client.nextRef + 1).toNat = (w.refs.length + 1) % 2 ^ 64 := by
    rw [UInt64.toNat_add, sound.nextRef]
    simp
  exact ⟨congrArg toString next, next⟩

/-- Taking a ref and sending with it leaves broadcasts and answers alone. -/
theorem Sound.send (sound : w.Sound) (joinRef : String → Option String) (topic event : String) (payload : Json)
    (now : Instant) (sent : Bool) (waiting : String → Activity)
    (calm : ∀ ref, (waiting ref).isListening = true → w.client.pending = [])
    (free : ∀ ref topic own deadline, waiting ref = .joining topic own deadline → w.client.topic = none) :
    let after := w.send joinRef topic event payload now sent waiting
    after.Sound ∧ (w.Tidy → (w.refs.length < 2 ^ 64 ↔ after.Tidy)) := by
  obtain ⟨ref, next⟩ := sound.takeRef
  have refs : w.refs ++ [w.client.takeRef.1] = numbering (w.refs ++ [w.client.takeRef.1]).length := by
    rw [List.length_append, List.length_singleton, numbering_succ, ← sound.refs, ref]
  have count : (w.refs ++ [w.client.takeRef.1]).length = w.refs.length + 1 := by simp
  have nextRef : w.client.takeRef.2.nextRef.toNat = (w.refs ++ [w.client.takeRef.1]).length % 2 ^ 64 := by
    rw [count]
    exact next
  have tidy (after : World) (same : after.returnedFrames = w.returnedFrames) (topic : after.client.topic = w.client.topic)
      (taken : after.refs = w.refs ++ [w.client.takeRef.1]) : w.Tidy → (w.refs.length < 2 ^ 64 ↔ after.Tidy) := by
    intro before
    rw [Tidy, same, topic, taken, count]
    exact ⟨fun room => ⟨before.1, room⟩, fun held => held.2⟩
  cases sent with
  | true =>
    exact ⟨⟨sound.delivered, sound.filtered, fun listens => calm _ listens, fun t r d => free _ t r d, refs,
      nextRef, sound.answers⟩, tidy _ rfl rfl rfl⟩
  | false =>
    exact ⟨⟨sound.delivered, sound.filtered, fun listens => (by cases listens), fun _ _ _ joins => (by cases joins), refs,
      nextRef, sound.answers⟩, tidy _ rfl rfl rfl⟩

theorem Sound.join (sound : w.Sound) (topic : String) (params : Json) (now : Instant)
    (sent : Bool) : (w.join topic params now sent).Sound ∧
      (w.Tidy → (w.Careful (.join topic params now sent) ↔ (w.join topic params now sent).Tidy)) := by
  unfold World.join
  cases joined : w.client.topic with
  | some other =>
    simp only [Option.isSome_some, if_true]
    refine ⟨sound, fun tidy => iff_of_true (fun none => ?_) tidy⟩
    cases joined.symm.trans none
  | none =>
    simp only [Option.isSome_none, Bool.false_eq_true, if_false]
    obtain ⟨still, tidy⟩ := sound.send some topic "phx_join" params now sent (fun msgRef =>
      .joining topic msgRef (now + replyTimeout)) (fun _ listens => by cases listens) fun _ _ _ _ _ => joined
    refine ⟨still, fun before => Iff.trans ?_ (tidy before)⟩
    exact ⟨fun careful => careful joined, fun room _ => room⟩

theorem Sound.push (sound : w.Sound) (event : String) (payload : Json) (now : Instant) (sent : Bool) :
    (w.push event payload now sent).Sound ∧
      (w.Tidy → (w.Careful (.push event payload now sent) ↔ (w.push event payload now sent).Tidy)) := by
  unfold World.push
  cases joined : w.client.topic with
  | none => exact ⟨sound, fun tidy => iff_of_true (fun some => absurd joined some) tidy⟩
  | some topic =>
    obtain ⟨still, tidy⟩ := sound.send (fun _ => w.client.joinRef) topic event payload now sent (fun msgRef =>
      .pushing msgRef (now + replyTimeout)) (fun _ listens => by cases listens) fun _ _ _ _ joins => by cases joins
    refine ⟨still, fun before => Iff.trans ?_ (tidy before)⟩
    exact ⟨fun careful => careful (by rw [joined]; simp), fun room _ => room⟩

theorem Sound.heartbeat (sound : w.Sound) {deadline : Instant} (listens : w.activity = .listening deadline)
    (now : Instant) (sent : Bool) : (w.heartbeat deadline now sent).Sound ∧
      (w.Tidy → (w.Careful (.heartbeat now sent) ↔ (w.heartbeat deadline now sent).Tidy)) := by
  have none := sound.listening (by rw [listens]; rfl)
  obtain ⟨still, tidy⟩ := sound.send (fun _ => Option.none) "phoenix" "heartbeat" (.object []) now sent
    (fun _ => .listening deadline) (fun _ _ => none) fun _ _ _ _ joins => by cases joins
  cases sent with
  | true => exact ⟨⟨still.delivered, still.filtered, still.listening, still.joining, still.refs, still.nextRef, still.answers⟩, tidy⟩
  | false => exact ⟨still, tidy⟩

/-- The oldest frame of the buffer. -/
theorem Sound.oldest (sound : w.Sound) {message : Broadcast} {pending : List Broadcast}
    (buffer : w.client.pending = message :: pending) :
    ∃ frame, w.delivered[w.returned.length]? = some frame ∧ frame.broadcast = message := by
  have there : (w.delivered.map Frame.broadcast)[w.returned.length]? = some message := by
    rw [sound.delivered, buffer, List.getElem?_append_right (Nat.le_refl _), Nat.sub_self]
    rfl
  rw [List.getElem?_map] at there
  exact Option.map_eq_some_iff.mp there

theorem Sound.nextBroadcast (sound : w.Sound) (idle : w.activity = .idle) (wait : Nat) (now : Instant) :
    (w.nextBroadcast wait now).Sound ∧
      (w.Tidy → (w.Careful (.nextBroadcast wait now) ↔ (w.nextBroadcast wait now).Tidy)) := by
  unfold World.nextBroadcast
  cases buffer : w.client.pending with
  | nil =>
    refine ⟨⟨sound.delivered, sound.filtered, fun _ => buffer, fun _ _ _ joins => (by cases joins), sound.refs,
      sound.nextRef, sound.answers⟩, fun tidy => iff_of_true (fun frame found => ?_) tidy⟩
    have all := sound.delivered
    rw [buffer, List.append_nil] at all
    have beyond := (List.getElem?_eq_some_iff.mp found).1
    have lengths := congrArg List.length all
    rw [List.length_map] at lengths
    omega
  | cons message pending =>
    obtain ⟨oldest, found, same⟩ := sound.oldest buffer
    refine ⟨⟨?_, sound.filtered, fun listens => ?_, sound.joining, sound.refs, sound.nextRef, sound.answers⟩, fun tidy => ?_⟩
    · simp only [sound.delivered, buffer, List.append_assoc, List.singleton_append]
    · simp [idle, Activity.isListening] at listens
    · have grown : w.delivered.take (w.returned.length + 1) = w.returnedFrames ++ [oldest] := by
        rw [returnedFrames, List.take_add_one, found]
        rfl
      simp only [Careful, Tidy, returnedFrames, List.length_append, List.length_singleton, grown, found]
      constructor
      · intro careful
        refine ⟨fun frame member => ?_, tidy.2⟩
        rcases List.mem_append.mp member with before | last
        · exact tidy.1 frame before
        · rw [List.mem_singleton.mp last]
          exact careful oldest rfl
      · intro held frame same
        cases same
        exact held.1 oldest (by simp)

/-- A reply or a frame of another topic, whatever it does to the heartbeat. -/
theorem Sound.passed (sound : w.Sound) {frame : Frame} (heartbeatRef : Option String)
    (foreign : ∀ topic, (w.client.topic = none ∨ w.client.topic = some topic) → frame.isOf topic = false) :
    { w with client := { w.client with heartbeatRef }, received := w.received ++ [frame] : World }.Sound :=
  ⟨sound.delivered, sound.filtered.skip foreign, sound.listening, sound.joining, sound.refs, sound.nextRef,
    fun answer member => (sound.answers answer member).later frame⟩

/-- A call that waits for its reply ends with it; until then broadcasts go to the buffer. -/
theorem Sound.awaitReply (sound : w.Sound) {frame : Frame} (wellFormed : frame.WellFormed) (wanted : String)
    (busy : w.activity.isListening = false) (done : Json → PhoenixClient → PhoenixClient)
    (keeps : ∀ value, (done value w.client).pending = w.client.pending ∧ (done value w.client).nextRef = w.client.nextRef ∧
      ((done value w.client).topic = w.client.topic ∨ w.client.topic = none)) :
    let after := { w with received := w.received ++ [frame] : World }.awaitReply frame wanted done
    after.Sound ∧ (w.Tidy → after.Tidy) := by
  obtain ⟨classified, client, made, classifies⟩ := classify_spec w.client wellFormed
  simp only [World.awaitReply, made]
  cases classifies with
  | heartbeat isReply => exact ⟨sound.passed none fun topic _ => foreign_of_reply isReply topic, id⟩
  | elsewhere topic _ joined different =>
    refine ⟨sound.passed w.client.heartbeatRef fun other relevant => ?_, id⟩
    rw [joined] at relevant
    exact foreign_of_elsewhere different other relevant
  | reply ref isReply own =>
    have passed := sound.passed w.client.heartbeatRef fun topic _ => foreign_of_reply isReply topic
    by_cases isOwn : ref = wanted
    · subst isOwn
      have answers (response : Except Rejected Json) (same : response = replyResponse frame.payload) :
          ∀ answer ∈ w.answers ++ [Answer.mk ref frame response], answer.Own (w.received ++ [frame]) := by
        intro answer member
        rcases List.mem_append.mp member with before | now
        · exact (sound.answers answer before).later frame
        · rw [List.mem_singleton.mp now]
          exact ⟨List.mem_append_right _ List.mem_cons_self, isReply, own, same⟩
      simp only [if_true]
      cases response : replyResponse frame.payload with
      | error rejected =>
        exact ⟨⟨passed.delivered, passed.filtered, fun listens => (by cases listens), fun _ _ _ joins => (by cases joins),
          passed.refs, passed.nextRef, answers _ response.symm⟩, id⟩
      | ok value =>
        obtain ⟨pending, nextRef, topic⟩ := keeps value
        refine ⟨⟨?_, passed.filtered.rejoin topic, fun listens => (by cases listens), fun _ _ _ joins => (by cases joins),
          passed.refs, ?_, answers _ response.symm⟩, fun tidy => ⟨fun other member => ?_, tidy.2⟩⟩
        · rw [pending]
          exact passed.delivered
        · rw [nextRef]
          exact passed.nextRef
        · rcases topic with same | none
          · exact same.trans (tidy.1 other member)
          · cases none.symm.trans (tidy.1 other member)
    · simp only [isOwn, if_false]
      exact ⟨passed, id⟩
  | mine noReply own =>
    refine ⟨⟨?_, sound.filtered.add noReply, fun listens => ?_, sound.joining, sound.refs, sound.nextRef,
      fun answer member => (sound.answers answer member).later frame⟩, fun tidy => ⟨?_, tidy.2⟩⟩
    · simp only [List.map_append, sound.delivered, List.map_singleton, List.append_assoc]
    · cases busy.symm.trans listens
    · simp only [returnedFrames, List.take_append_of_le_length sound.returned_le]
      exact tidy.1

/-- A call that listens returns the first broadcast it reads, before it is joined of any topic. -/
theorem Sound.listen (sound : w.Sound) {frame : Frame} (wellFormed : frame.WellFormed)
    (listens : w.activity.isListening = true) :
    let after := { w with received := w.received ++ [frame] : World }.listen frame
    after.Sound ∧ (w.Tidy → (w.Careful (.frame frame) ↔ after.Tidy)) := by
  obtain ⟨classified, client, made, classifies⟩ := classify_spec w.client wellFormed
  simp only [World.listen, made]
  cases classifies with
  | heartbeat isReply =>
    exact ⟨sound.passed none fun topic _ => foreign_of_reply isReply topic,
      fun tidy => iff_of_true (fun _ noReply => absurd isReply noReply) tidy⟩
  | reply ref isReply own =>
    exact ⟨sound.passed w.client.heartbeatRef fun topic _ => foreign_of_reply isReply topic,
      fun tidy => iff_of_true (fun _ noReply => absurd isReply noReply) tidy⟩
  | elsewhere topic _ joined different =>
    refine ⟨sound.passed w.client.heartbeatRef fun other relevant => ?_,
      fun tidy => iff_of_true (fun _ _ none => by cases joined.symm.trans none) tidy⟩
    rw [joined] at relevant
    exact foreign_of_elsewhere different other relevant
  | mine noReply own =>
    have empty := sound.listening listens
    have all : w.delivered.map Frame.broadcast = w.returned := by rw [sound.delivered, empty, List.append_nil]
    have lengths : w.returned.length = w.delivered.length := by rw [← all, List.length_map]
    refine ⟨⟨?_, sound.filtered.add noReply, fun listens => (by cases listens), fun _ _ _ joins => (by cases joins),
      sound.refs, sound.nextRef, fun answer member => (sound.answers answer member).later frame⟩, fun tidy => ?_⟩
    · simp only [List.map_append, all, empty, List.map_singleton, List.append_nil]
    · have before : w.returnedFrames = w.delivered := by rw [returnedFrames, lengths, List.take_length]
      have now : (w.delivered ++ [frame]).take (w.returned ++ [frame.broadcast]).length = w.delivered ++ [frame] := by
        rw [List.take_of_length_le (by simp [lengths])]
      simp only [Tidy, returnedFrames, now]
      constructor
      · intro careful
        refine ⟨fun other member => ?_, tidy.2⟩
        rcases List.mem_append.mp member with earlier | last
        · exact tidy.1 other (before ▸ earlier)
        · obtain ⟨topic, joined⟩ := Option.ne_none_iff_exists'.mp (careful listens noReply)
          rw [List.mem_singleton.mp last, joined, own topic joined]
      · intro held _ _ none
        cases none.symm.trans (held.1 frame (by simp))

theorem Sound.read (sound : w.Sound) {frame : Frame} (wellFormed : frame.WellFormed) (taken : w.read frame = some after) :
    after.Sound ∧ (w.Tidy → (w.Careful (.frame frame) ↔ after.Tidy)) := by
  have quiet (busy : w.activity.isListening = false) : w.Careful (.frame frame) := fun listens => by
    cases busy.symm.trans listens
  cases activity : w.activity with
  | idle =>
    simp only [World.read, activity] at taken
    cases taken
  | joining topic ref deadline =>
    have busy : w.activity.isListening = false := by rw [activity]; rfl
    have free := sound.joining topic ref deadline activity
    simp only [World.read, activity, Option.some.injEq] at taken
    obtain ⟨still, tidy⟩ := sound.awaitReply wellFormed ref busy
      (fun _ client => { client with topic := some topic, joinRef := some ref }) fun _ => ⟨rfl, rfl, .inr free⟩
    rw [activity, taken] at still tidy
    exact ⟨still, fun before => iff_of_true (quiet busy) (tidy before)⟩
  | pushing ref deadline =>
    have busy : w.activity.isListening = false := by rw [activity]; rfl
    simp only [World.read, activity, Option.some.injEq] at taken
    obtain ⟨still, tidy⟩ := sound.awaitReply wellFormed ref busy (fun _ client => client) fun _ => ⟨rfl, rfl, .inl rfl⟩
    rw [activity, taken] at still tidy
    exact ⟨still, fun before => iff_of_true (quiet busy) (tidy before)⟩
  | listening deadline =>
    have listens : w.activity.isListening = true := by rw [activity]; rfl
    simp only [World.read, activity, Option.some.injEq] at taken
    have listened := sound.listen wellFormed listens
    rw [activity, taken] at listened
    exact listened

theorem Sound.endCall (sound : w.Sound) : { w with activity := .idle : World }.Sound :=
  ⟨sound.delivered, sound.filtered, fun listens => (by cases listens), fun _ _ _ joins => (by cases joins), sound.refs,
    sound.nextRef, sound.answers⟩

theorem Sound.next {label : Label} (sound : w.Sound) (taken : w.Step label after) :
    after.Sound ∧ (w.Tidy → (w.Careful label ↔ after.Tidy)) := by
  cases label with
  | join topic params now sent =>
    obtain ⟨_, ⟨⟩⟩ := Option.ite_none_right_eq_some.mp taken
    exact sound.join topic params now sent
  | push event payload now sent =>
    obtain ⟨_, ⟨⟩⟩ := Option.ite_none_right_eq_some.mp taken
    exact sound.push event payload now sent
  | nextBroadcast wait now =>
    obtain ⟨idle, ⟨⟩⟩ := Option.ite_none_right_eq_some.mp taken
    exact sound.nextBroadcast idle wait now
  | heartbeat now sent =>
    simp only [Step, World.next] at taken
    split at taken
    next deadline listens =>
      obtain ⟨_, ⟨⟩⟩ := Option.ite_none_right_eq_some.mp taken
      exact sound.heartbeat listens now sent
    next => cases taken
  | frame frame =>
    obtain ⟨wellFormed, read⟩ := Option.ite_none_right_eq_some.mp taken
    exact sound.read wellFormed read
  | readFailed =>
    obtain ⟨_, ⟨⟩⟩ := Option.ite_none_right_eq_some.mp taken
    exact ⟨sound.endCall, fun tidy => iff_of_true trivial tidy⟩
  | timedOut now =>
    obtain ⟨_, ⟨⟩⟩ := Option.ite_none_right_eq_some.mp taken
    exact ⟨sound.endCall, fun tidy => iff_of_true trivial tidy⟩

theorem Sound.start (now : Instant) : (init now).Sound :=
  ⟨rfl, fun _ _ => rfl, fun listens => (by cases listens), fun _ _ _ joins => (by cases joins), rfl, rfl,
    fun _ member => absurd member List.not_mem_nil⟩

theorem Tidy.start (now : Instant) : (init now).Tidy := ⟨fun _ member => absurd member List.not_mem_nil, Nat.zero_le _⟩

/-- The client delivers its topic exactly as long as `next_broadcast` neither reads before a join nor
comes to what a join has buffered of another topic, and the refs do not run out. -/
theorem exact_iff_careful {now : Instant} {labels : List Label} {last : World} :
    Run (Within Exact Step) (init now) labels last ↔ Run (Guarded Careful Step) (init now) labels last :=
  Run.within_iff_guarded Sound ⟨Sound.start now, (Sound.start now).exact_iff_tidy.mpr (Tidy.start now)⟩
    (fun sound taken => (sound.next taken).1) fun sound exact taken => by
      have next := sound.next taken
      exact (next.2 (sound.exact_iff_tidy.mp exact)).trans next.1.exact_iff_tidy.symm

/-- A frame of topic `b` comes while the client joins `a`, and `next_broadcast` returns it. -/
def strayFrame : List Label :=
  [.join "a" .null 0 true, .frame ⟨none, "b", "msg", .null⟩,
    .frame ⟨some "1", "a", "phx_reply", .object [("status", .string "ok"), ("response", .null)]⟩, .nextBroadcast 1000 1]

theorem strayFrame_returned : ∃ last, Run Step (init 0) strayFrame last ∧ ¬ last.Exact := by
  refine ⟨_, play_run rfl, fun exact => ?_⟩
  have isPrefix := exact.joined "a" rfl
  exact absurd isPrefix.length_le (by decide)

end World
end Burble.Client

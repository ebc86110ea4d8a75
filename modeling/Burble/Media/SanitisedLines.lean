import Burble.Media.Privacy

namespace Burble.Media

section Kinds
variable {mode : PrivacyMode} {toolsEverywhere : Bool} {line : Chars}

/-- A line of a kind begins with its key. -/
theorem begins (line : Chars) : (kindOf line = .session → sessionKey <+: line) ∧ (kindOf line = .origin → originKey <+: line) ∧
    (kindOf line = .bandwidth → bandwidthKey <+: line) ∧ (kindOf line = .tool → toolKey <+: line) := by
  unfold kindOf
  simp only [List.isPrefixOf_iff_prefix]
  split
  · simp_all
  · split
    · simp_all
    · split
      · simp_all
      · split <;> simp_all

theorem renamed_session (kind : kindOf line = .session) : renamed line = sessionLine := by
  obtain ⟨rest, rfl⟩ := (begins line).1 kind
  rw [renamed, rewriteLine_begins (by decide)]
  decide

theorem renamed_origin (kind : kindOf line = .origin) : renamed line = originLine := by
  obtain ⟨rest, rfl⟩ := (begins line).2.1 kind
  have session : rewriteLine sessionKey sessionLine (originKey ++ rest) =
      originKey ++ rewriteLine sessionKey sessionLine rest := by
    change rewriteLine sessionKey sessionLine ('o' :: '=' :: rest) = _
    rw [rewriteLine_cons (by rfl), rewriteLine_cons (by rfl)]
    rfl
  rw [renamed, session, rewriteLine_begins (by decide)]

theorem renamed_bandwidth (kind : kindOf line = .bandwidth) : bandwidthKey <+: renamed line := by
  obtain ⟨rest, rfl⟩ := (begins line).2.2.1 kind
  have kept {key ending : Chars} (rest : Chars) (apart : key.isPrefixOf ('b' :: '=' :: rest) = false)
      (apart' : key.isPrefixOf ('=' :: rest) = false) :
      rewriteLine key ending (bandwidthKey ++ rest) = bandwidthKey ++ rewriteLine key ending rest := by
    change rewriteLine key ending ('b' :: '=' :: rest) = _
    rw [rewriteLine_cons apart, rewriteLine_cons apart']
    rfl
  rw [renamed, kept rest (by rfl) (by rfl), kept _ (by rfl) (by rfl)]
  exact List.prefix_append _ _

theorem renamed_tool (kind : kindOf line = .tool) : toolKey <+: renamed line := by
  obtain ⟨rest, rfl⟩ := (begins line).2.2.2 kind
  have session : rewriteLine sessionKey sessionLine (toolKey ++ rest) = toolKey ++ rewriteLine sessionKey sessionLine rest := by
    change rewriteLine sessionKey sessionLine ('a' :: '=' :: 't' :: 'o' :: 'o' :: 'l' :: ':' :: rest) = _
    iterate 7 rw [rewriteLine_cons (by rfl)]
    rfl
  have origin (rest : Chars) : rewriteLine originKey originLine (toolKey ++ rest) =
      toolKey ++ rewriteLine originKey originLine rest := by
    change rewriteLine originKey originLine ('a' :: '=' :: 't' :: 'o' :: 'o' :: 'l' :: ':' :: rest) = _
    iterate 7 rw [rewriteLine_cons (by rfl)]
    rfl
  rw [renamed, session, origin]
  exact List.prefix_append _ _

theorem rewriteLine_eq_self {key ending : Chars} : rewriteLine key ending line = line ↔ EndsAs key ending line := by
  unfold rewriteLine EndsAs
  cases before key line with
  | none => simp
  | some front =>
    constructor
    · rintro same _ ⟨⟩
      exact same.symm
    · intro ends
      exact (ends front rfl).symm

/-- The replacements of session and origin texts leave a line where each does. -/
theorem renamed_eq_self : renamed line = line ↔ EndsAs sessionKey sessionLine line ∧ EndsAs originKey originLine line := by
  rw [← rewriteLine_eq_self, ← rewriteLine_eq_self]
  constructor
  · intro same
    suffices session : rewriteLine sessionKey sessionLine line = line by
      rw [renamed, session] at same
      exact ⟨session, same⟩
    cases session : before sessionKey line with
    | none => rw [rewriteLine, session]
    | some front =>
      have first : rewriteLine sessionKey sessionLine line = front ++ sessionLine := by rw [rewriteLine, session]
      rw [renamed, first] at same
      rw [first]
      cases origin : before originKey (front ++ sessionLine) with
      | none => rwa [rewriteLine, origin] at same
      | some early =>
        have second : rewriteLine originKey originLine (front ++ sessionLine) = early ++ originLine := by
          rw [rewriteLine, origin]
        rw [second] at same
        -- A session text before the line's end would be one in the origin's end.
        obtain ⟨rest, whole⟩ := before_split session
        obtain ⟨after, found⟩ := before_split origin
        rcases List.append_eq_append_iff.mp found with ⟨middle, rfl, ending⟩ | ⟨middle, rfl, ending⟩
        · have inside := before_append (by decide : originKey ≠ []) middle after
          rw [← ending] at inside
          exact absurd (by decide) inside
        · rcases middle with _ | ⟨one, _ | ⟨two, more⟩⟩
          · exact absurd (List.cons.inj ending).1 (by decide)
          · exact absurd (List.cons.inj (List.cons.inj ending).2).1 (by decide)
          · have inside := before_append (by decide : sessionKey ≠ []) (one :: two :: more) rest
            rw [whole, List.append_assoc] at same
            rw [← List.append_cancel_left same] at inside
            exact absurd (by decide) inside
  · rintro ⟨session, origin⟩
    rw [renamed, session, origin]

/-- A line that is kept comes through by itself, and as it is to be. -/
theorem kept_iff {kept : Chars} (target : targeted toolsEverywhere mode line = some kept) :
    (bandwidthCut mode (renamed line) = none ∧ before toolKey (renamed line) = none ∧ renamed line = kept) ↔
      kindOf line = .session ∨ kindOf line = .origin ∨ Unmatched mode line := by
  by_cases session : kindOf line = .session
  · rw [targeted, session] at target
    cases target
    rw [renamed_session session]
    refine iff_of_true ⟨?_, by decide, rfl⟩ (.inl session)
    rw [bandwidthCut]
    split <;> decide
  by_cases origin : kindOf line = .origin
  · rw [targeted, origin] at target
    cases target
    rw [renamed_origin origin]
    refine iff_of_true ⟨?_, by decide, rfl⟩ (.inr (.inl origin))
    rw [bandwidthCut]
    split <;> decide
  · have same : kept = line := by
      unfold targeted at target
      split at target
      · contradiction
      · contradiction
      · split at target <;> cases target
        rfl
      · split at target <;> cases target
        rfl
      · cases target
        rfl
    subst same
    constructor
    · rintro ⟨bandwidth, tool, same⟩
      obtain ⟨session, origin⟩ := renamed_eq_self.mp same
      rw [same] at bandwidth tool
      exact .inr (.inr ⟨session, origin, fun maximum => by rwa [bandwidthCut, if_pos maximum] at bandwidth, tool⟩)
    · rintro (session' | origin' | unmatched)
      · exact absurd session' session
      · exact absurd origin' origin
      · have same := renamed_eq_self.mpr ⟨unmatched.session, unmatched.origin⟩
        rw [same]
        refine ⟨?_, unmatched.tool, rfl⟩
        rw [bandwidthCut]
        split
        next maximum => exact unmatched.bandwidth maximum
        next => rfl

/-- A line that is removed is a bandwidth line that leaves nothing, or a tool line. -/
theorem removed_cases (target : targeted toolsEverywhere mode line = none) :
    (kindOf line = .bandwidth ∧ bandwidthCut mode (renamed line) = some []) ∨ kindOf line = .tool := by
  unfold targeted at target
  split at target
  · cases target
  · cases target
  next kind =>
    split at target
    next maximum =>
      obtain ⟨rest, whole⟩ := renamed_bandwidth kind
      refine .inl ⟨kind, ?_⟩
      rw [bandwidthCut, if_pos maximum, ← whole, before_begins (by decide)]
    next => cases target
  next kind => exact .inr kind
  · cases target

end Kinds

section Sweeping
variable {mode : PrivacyMode} {toolsEverywhere : Bool} {line carry left : Chars} {rest lines : List Chars}

theorem afterTools_cut {kept : Chars} (cut : bandwidthCut mode (renamed line) = some kept) :
    afterTools mode left carry (line :: rest) = afterTools mode left (carry ++ kept) rest := by
  rw [afterTools, afterTools, afterBandwidth, afterBandwidth, List.map_cons, cutLines, cut]

theorem afterBandwidth_cut {kept : Chars} (cut : bandwidthCut mode (renamed line) = some kept) :
    afterBandwidth mode carry (line :: rest) = afterBandwidth mode (carry ++ kept) rest := by
  rw [afterBandwidth, afterBandwidth, List.map_cons, cutLines, cut]

theorem afterBandwidth_whole (whole : bandwidthCut mode (renamed line) = none) : afterBandwidth mode carry (line :: rest) =
    ((carry ++ renamed line) :: (afterBandwidth mode [] rest).1, (afterBandwidth mode [] rest).2) := by
  rw [afterBandwidth, afterBandwidth, List.map_cons, cutLines, whole]

theorem afterTools_tool {kept : Chars} (whole : bandwidthCut mode (renamed line) = none)
    (tool : before toolKey (carry ++ renamed line) = some kept) :
    afterTools mode left carry (line :: rest) = afterTools mode (left ++ kept) [] rest := by
  rw [afterTools, afterTools, afterBandwidth_whole whole, cutLines, tool]

theorem afterTools_whole (whole : bandwidthCut mode (renamed line) = none)
    (tool : before toolKey (carry ++ renamed line) = none) : afterTools mode left carry (line :: rest) =
      ((left ++ (carry ++ renamed line)) :: (afterTools mode [] [] rest).1, (afterTools mode [] [] rest).2) := by
  rw [afterTools, afterTools, afterBandwidth_whole whole, cutLines, tool]

/-- No more lines come through than are kept. -/
theorem afterTools_length_le (toolsEverywhere : Bool) (mode : PrivacyMode) (left carry : Chars) (lines : List Chars) :
    (afterTools mode left carry lines).1.length ≤ (lines.filterMap (targeted toolsEverywhere mode)).length := by
  induction lines generalizing left carry with
  | nil => exact Nat.le_refl 0
  | cons line rest ih =>
    have more : (rest.filterMap (targeted toolsEverywhere mode)).length ≤
        ((line :: rest).filterMap (targeted toolsEverywhere mode)).length :=
      ((List.sublist_cons_self line rest).filterMap _).length_le
    cases cut : bandwidthCut mode (renamed line) with
    | some kept =>
      rw [afterTools_cut cut]
      exact Nat.le_trans (ih _ _) more
    | none =>
      cases tool : before toolKey (carry ++ renamed line) with
      | some kept =>
        rw [afterTools_tool cut tool]
        exact Nat.le_trans (ih _ _) more
      | none =>
        rw [afterTools_whole cut tool]
        cases target : targeted toolsEverywhere mode line with
        | some kept =>
          rw [List.filterMap_cons_some target]
          exact Nat.succ_le_succ (ih _ _)
        | none =>
          rcases removed_cases target with ⟨-, all⟩ | kind
          · cases cut.symm.trans all
          · obtain ⟨after, whole⟩ := renamed_tool kind
            rw [← whole] at tool
            exact absurd tool (before_append (by decide) carry after)

/-- The lines that come through are those that are to, and nothing is left behind them. -/
structure Meets (toolsEverywhere : Bool) (mode : PrivacyMode) (carry : Chars) (lines : List Chars) : Prop where
  through : (afterTools mode [] carry lines).1 = lines.filterMap (targeted toolsEverywhere mode)
  tools : (afterTools mode [] carry lines).2 = []
  bandwidth : (afterBandwidth mode carry lines).2 = []

/-- A line that is kept comes through, or another is missing. -/
theorem not_meets {kept carry' : Chars} (target : targeted toolsEverywhere mode line = some kept)
    (swept : afterTools mode [] carry (line :: rest) = afterTools mode left carry' rest) :
    ¬ Meets toolsEverywhere mode carry (line :: rest) := by
  intro meets
  have length := congrArg List.length meets.through
  rw [swept, List.filterMap_cons_some target, List.length_cons] at length
  have most := afterTools_length_le toolsEverywhere mode left carry' rest
  omega

theorem meets_congr {carry' : Chars} (target : targeted toolsEverywhere mode line = none)
    (tools : afterTools mode [] carry (line :: rest) = afterTools mode [] carry' rest)
    (bandwidth : (afterBandwidth mode carry (line :: rest)).2 = (afterBandwidth mode carry' rest).2) :
    Meets toolsEverywhere mode carry (line :: rest) ↔ Meets toolsEverywhere mode carry' rest := by
  have same := List.filterMap_cons_none (l := rest) target
  constructor
  · rintro ⟨through, nothing, left⟩
    exact ⟨by rw [← tools, through, same], tools ▸ nothing, bandwidth ▸ left⟩
  · rintro ⟨through, nothing, left⟩
    exact ⟨by rw [tools, through, same], tools ▸ nothing, bandwidth ▸ left⟩

theorem meets_whole {kept : Chars} (target : targeted toolsEverywhere mode line = some kept)
    (cut : bandwidthCut mode (renamed line) = none) (tool : before toolKey (renamed line) = none) :
    Meets toolsEverywhere mode [] (line :: rest) ↔ renamed line = kept ∧ Meets toolsEverywhere mode [] rest := by
  have swept := @afterTools_whole mode line [] [] rest cut tool
  have left := congrArg Prod.snd (@afterBandwidth_whole mode line [] rest cut)
  constructor
  · rintro ⟨through, nothing, behind⟩
    rw [swept, List.filterMap_cons_some target] at through
    obtain ⟨same, others⟩ := List.cons.inj through
    exact ⟨same, others, by rwa [swept] at nothing, left ▸ behind⟩
  · rintro ⟨same, through, nothing, behind⟩
    refine ⟨?_, by rw [swept]; exact nothing, left ▸ behind⟩
    rw [swept, List.filterMap_cons_some target, through]
    exact congrArg (· :: _) same

theorem toolNext_cons : ToolNext (line :: rest) ↔ kindOf line = .tool ∨ kindOf line = .bandwidth ∧ ToolNext rest := by
  constructor
  · rintro ⟨bandwidths, tool, more, split, all, kind⟩
    cases bandwidths with
    | nil =>
      obtain ⟨rfl, rfl⟩ := List.cons.inj split
      exact .inl kind
    | cons first others =>
      obtain ⟨rfl, rfl⟩ := List.cons.inj split
      obtain ⟨here, later⟩ := List.forall_mem_cons.mp all
      exact .inr ⟨here, others, tool, more, rfl, later, kind⟩
  · rintro (kind | ⟨here, bandwidths, tool, more, rfl, all, kind⟩)
    · exact ⟨[], line, rest, rfl, by simp, kind⟩
    · exact ⟨line :: bandwidths, tool, more, rfl, List.forall_mem_cons.mpr ⟨here, all⟩, kind⟩

/-- What the bandwidth replacement leaves of a tool line begins as one. -/
theorem bandwidthCut_tool {kept : Chars} (kind : kindOf line = .tool) (cut : bandwidthCut mode (renamed line) = some kept) :
    mode = .maximum ∧ ∃ more, kept = toolKey ++ more := by
  obtain ⟨after, whole⟩ := renamed_tool kind
  rw [bandwidthCut, ← whole] at cut
  split at cut
  next maximum =>
    refine ⟨maximum, ?_⟩
    change before bandwidthKey ('a' :: '=' :: 't' :: 'o' :: 'o' :: 'l' :: ':' :: after) = _ at cut
    iterate 7 rw [before_cons (by rfl)] at cut
    cases inside : before bandwidthKey after with
    | none =>
      rw [inside] at cut
      cases cut
    | some more =>
      rw [inside] at cut
      exact ⟨more, (Option.some.inj cut).symm⟩
  next => cases cut

/-- A tool line that is removed leaves nothing where the bandwidth key does not cut it, whatever tool text is before it. -/
theorem meets_tool {carry' : Chars} (target : targeted toolsEverywhere mode line = none) (kind : kindOf line = .tool)
    (cut : bandwidthCut mode (renamed line) = none) (begun : carry' = [] ∨ toolKey <+: carry') :
    Meets toolsEverywhere mode carry' (line :: rest) ↔ Meets toolsEverywhere mode [] rest := by
  have tool : before toolKey (carry' ++ renamed line) = some [] := by
    rcases begun with rfl | ⟨more, rfl⟩
    · obtain ⟨after, whole⟩ := renamed_tool kind
      rw [← whole]
      exact before_begins (by decide) after
    · rw [List.append_assoc]
      exact before_begins (by decide) _
  exact meets_congr target (afterTools_tool cut tool) (by rw [afterBandwidth_whole cut])

theorem lineSound_bandwidth (target : targeted toolsEverywhere mode line = none) (kind : kindOf line = .bandwidth) :
    LineSound toolsEverywhere mode line rest := by
  rw [LineSound, target]
  intro tool
  cases kind.symm.trans tool

theorem lineSound_tool (target : targeted toolsEverywhere mode line = none) (kind : kindOf line = .tool) :
    LineSound toolsEverywhere mode line rest ↔ (bandwidthCut mode (renamed line) ≠ none → ToolNext rest) := by
  rw [LineSound, target, bandwidthCut]
  constructor
  · intro sound
    split
    next maximum => exact sound kind maximum
    next => exact fun cut => absurd rfl cut
  · intro sound _ maximum
    rwa [if_pos maximum] at sound

/-- The lines of a text come through as they are to where they are sound. With a tool text before them, which has lost the end
    of its line, they do where the next line that is no bandwidth line is a tool line too. -/
theorem meets_iff (toolsEverywhere : Bool) (mode : PrivacyMode) (lines : List Chars) :
    (Meets toolsEverywhere mode [] lines ↔ LinesSound toolsEverywhere mode lines) ∧
      (mode = .maximum → ∀ more, Meets toolsEverywhere mode (toolKey ++ more) lines ↔
        ToolNext lines ∧ LinesSound toolsEverywhere mode lines) := by
  induction lines with
  | nil =>
    refine ⟨iff_of_true ⟨rfl, rfl, rfl⟩ trivial, fun _ more => iff_of_false (fun meets => ?_) fun sound => ?_⟩
    · cases meets.bandwidth
    · obtain ⟨bandwidths, line, rest, split, -⟩ := sound.1
      cases bandwidths <;> cases split
  | cons line rest ih =>
    obtain ⟨alone, behind⟩ := ih
    cases target : targeted toolsEverywhere mode line with
    | some kept =>
      have sound : LineSound toolsEverywhere mode line rest ↔
          kindOf line = .session ∨ kindOf line = .origin ∨ Unmatched mode line := by
        rw [LineSound, target]
      refine ⟨?_, fun maximum more => iff_of_false ?_ fun ⟨next, _⟩ => ?_⟩
      · rw [LinesSound, sound, ← kept_iff target, ← alone]
        cases cut : bandwidthCut mode (renamed line) with
        | some left => exact iff_of_false (not_meets target (afterTools_cut cut)) fun both => by cases both.1.1
        | none =>
          cases tool : before toolKey (renamed line) with
          | some left => exact iff_of_false (not_meets target (afterTools_tool cut tool)) fun both => by cases both.1.2.1
          | none =>
            rw [meets_whole target cut tool]
            exact and_congr_left fun _ => ⟨fun same => ⟨rfl, rfl, same⟩, fun all => all.2.2⟩
      · cases cut : bandwidthCut mode (renamed line) with
        | some left => exact not_meets target (afterTools_cut cut)
        | none =>
          have tool : before toolKey (toolKey ++ more ++ renamed line) = some [] := by
            rw [List.append_assoc]
            exact before_begins (by decide) _
          exact not_meets target (afterTools_tool cut tool)
      · unfold targeted at target
        rcases toolNext_cons.mp next with kind | ⟨kind, -⟩ <;> simp [kind, maximum] at target
    | none =>
      rw [LinesSound]
      rcases removed_cases target with ⟨kind, cut⟩ | kind
      · have sound : LineSound toolsEverywhere mode line rest := lineSound_bandwidth target kind
        have step (carry : Chars) : Meets toolsEverywhere mode carry (line :: rest) ↔ Meets toolsEverywhere mode carry rest := by
          have tools := @afterTools_cut mode line carry [] rest [] cut
          have bandwidth := congrArg Prod.snd (@afterBandwidth_cut mode line carry rest [] cut)
          rw [List.append_nil] at tools bandwidth
          exact meets_congr target tools bandwidth
        refine ⟨(step []).trans (alone.trans (and_iff_right sound).symm), fun maximum more => ?_⟩
        rw [step, behind maximum more, toolNext_cons, kind, and_iff_right sound]
        simp
      · rw [lineSound_tool target kind]
        have next : ToolNext (line :: rest) := toolNext_cons.mpr (.inl kind)
        cases cut : bandwidthCut mode (renamed line) with
        | none =>
          have plain : (none ≠ (none : Option Chars) → ToolNext rest) ∧ LinesSound toolsEverywhere mode rest ↔
              LinesSound toolsEverywhere mode rest := and_iff_right fun other => absurd rfl other
          refine ⟨(meets_tool target kind cut (.inl rfl)).trans (alone.trans plain.symm), fun _ more => ?_⟩
          rw [meets_tool target kind cut (.inr (List.prefix_append _ _)), alone, plain, and_iff_right next]
        | some kept =>
          obtain ⟨maximum, after, rfl⟩ := bandwidthCut_tool kind cut
          have cutting : (some (toolKey ++ after) ≠ none → ToolNext rest) ∧ LinesSound toolsEverywhere mode rest ↔
              ToolNext rest ∧ LinesSound toolsEverywhere mode rest := by simp
          refine ⟨?_, fun _ more => ?_⟩
          · rw [cutting, ← behind maximum after]
            exact meets_congr target (afterTools_cut cut) (by rw [afterBandwidth_cut cut]; rfl)
          · rw [and_iff_right next, cutting, ← behind maximum (more ++ (toolKey ++ after)), ← List.append_assoc]
            exact meets_congr target (afterTools_cut cut) (by rw [afterBandwidth_cut cut])

end Sweeping

section Texts
variable {mode : PrivacyMode} {toolsEverywhere : Bool} {lines : List Chars} {tail : Chars}

theorem targeted_free {line kept : Chars} (target : targeted toolsEverywhere mode line = some kept) (free : '\n' ∉ line) :
    '\n' ∉ kept := by
  unfold targeted at target
  split at target
  · cases target
    decide
  · cases target
    decide
  · split at target <;> cases target
    exact free
  · split at target <;> cases target
    exact free
  · cases target
    exact free

theorem filterMap_targeted_free (free : ∀ line ∈ lines, '\n' ∉ line) :
    ∀ line ∈ lines.filterMap (targeted toolsEverywhere mode), '\n' ∉ line := by
  intro kept mem
  obtain ⟨line, listed, target⟩ := List.mem_filterMap.mp mem
  exact targeted_free target (free line listed)

theorem sanitiseSdp_eq_iff (free : ∀ line ∈ lines, '\n' ∉ line) (freeTail : '\n' ∉ tail) :
    sanitiseSdp (terminated '\n' lines tail) mode =
        terminated '\n' (lines.filterMap (targeted toolsEverywhere mode)) tail ↔
      LinesSound toolsEverywhere mode lines := by
  obtain ⟨freeLines, freeTools⟩ := afterTools_free mode free
  have freeLeft := (afterBandwidth_free mode free).2
  have freeEnd : '\n' ∉ (afterTools mode [] [] lines).2 ++ ((afterBandwidth mode [] lines).2 ++ tail) := by
    simp only [List.mem_append, not_or]
    exact ⟨freeTools, freeLeft, freeTail⟩
  rw [sanitiseSdp_lines mode free freeTail, terminated_inj freeLines freeEnd (filterMap_targeted_free free) freeTail,
    ← (meets_iff toolsEverywhere mode lines).1, ← List.append_assoc, List.append_left_eq_self, List.append_eq_nil_iff]
  exact ⟨fun ⟨through, tools, left⟩ => ⟨through, tools, left⟩, fun ⟨through, tools, left⟩ => ⟨through, tools, left⟩⟩

/-- A line that comes through is to come through again. -/
theorem targeted_again {line kept : Chars} {rest : List Chars} (target : targeted toolsEverywhere mode line = some kept)
    (sound : LineSound toolsEverywhere mode line rest) (later : List Chars) :
    targeted toolsEverywhere mode kept = some kept ∧ LineSound toolsEverywhere mode kept later := by
  have fixed {line : Chars} (same : targeted toolsEverywhere mode line = some line)
      (kept : kindOf line = .session ∨ kindOf line = .origin ∨ Unmatched mode line) :
      targeted toolsEverywhere mode line = some line ∧ LineSound toolsEverywhere mode line later := by
    refine ⟨same, ?_⟩
    rw [LineSound, same]
    exact kept
  have session : kindOf sessionLine = .session := by decide
  have origin : kindOf originLine = .origin := by decide
  have through := target
  rw [LineSound, target] at sound
  unfold targeted at target
  split at target
  next => cases target; exact fixed (by rw [targeted, session]) (.inl session)
  next => cases target; exact fixed (by rw [targeted, origin]) (.inr (.inl origin))
  next => split at target <;> cases target; exact fixed through sound
  next => split at target <;> cases target; exact fixed through sound
  next => cases target; exact fixed through sound

theorem linesSound_again (sound : LinesSound toolsEverywhere mode lines) :
    LinesSound toolsEverywhere mode (lines.filterMap (targeted toolsEverywhere mode)) ∧
      (lines.filterMap (targeted toolsEverywhere mode)).filterMap (targeted toolsEverywhere mode) =
        lines.filterMap (targeted toolsEverywhere mode) := by
  induction lines with
  | nil => exact ⟨trivial, rfl⟩
  | cons line rest ih =>
    obtain ⟨here, later⟩ := ih sound.2
    cases target : targeted toolsEverywhere mode line with
    | none =>
      rw [List.filterMap_cons_none target]
      exact ⟨here, later⟩
    | some kept =>
      obtain ⟨again, soundAgain⟩ := targeted_again target sound.1 (rest.filterMap (targeted toolsEverywhere mode))
      rw [List.filterMap_cons_some target]
      exact ⟨⟨soundAgain, here⟩, by rw [List.filterMap_cons_some again, later]⟩

/-- What is asked of the sanitiser for a text: the lines that it targets are changed and no other, and a second time changes
    nothing. -/
structure Sanitised (toolsEverywhere : Bool) (mode : PrivacyMode) (sdp : Chars) : Prop where
  targets : sanitiseSdp sdp mode = intended toolsEverywhere mode sdp
  again : sanitiseSdp (sanitiseSdp sdp mode) mode = sanitiseSdp sdp mode

/-- A text is sanitised where its lines are sound, and only there. -/
theorem sanitised_iff (toolsEverywhere : Bool) (mode : PrivacyMode) (sdp : Chars) :
    Sanitised toolsEverywhere mode sdp ↔ LinesSound toolsEverywhere mode (linesOf '\n' sdp) := by
  have free := linesOf_free '\n' sdp
  have freeTail := tailOf_free '\n' sdp
  have whole := terminated_linesOf '\n' sdp
  have first : sanitiseSdp sdp mode = intended toolsEverywhere mode sdp ↔
      LinesSound toolsEverywhere mode (linesOf '\n' sdp) := by
    rw [← sanitiseSdp_eq_iff free freeTail, whole]
    rfl
  constructor
  · exact fun sanitised => first.mp sanitised.targets
  · intro sound
    have same := first.mpr sound
    obtain ⟨soundAgain, again⟩ := linesSound_again sound
    have second := (sanitiseSdp_eq_iff (filterMap_targeted_free free) freeTail).mpr soundAgain
    rw [again] at second
    exact ⟨same, by rw [same]; exact second⟩

end Texts

/-- A stereo parameter, which ends in an o. -/
def stereoLine : Chars := "a=fmtp:111 minptime=10;stereo=1\r\n".toList

theorem stereoLine_changed : sanitiseSdp stereoLine .turnOnly = "a=fmtp:111 minptime=10;stereo=- 0 0 IN IP4 0.0.0.0\r\n".toList ∧
    ∀ toolsEverywhere, ¬ Sanitised toolsEverywhere .turnOnly stereoLine := by
  have changed : sanitiseSdp stereoLine .turnOnly = "a=fmtp:111 minptime=10;stereo=- 0 0 IN IP4 0.0.0.0\r\n".toList := by
    decide +kernel
  refine ⟨changed, fun toolsEverywhere sanitised => ?_⟩
  have kept : intended toolsEverywhere .turnOnly stereoLine = stereoLine := by
    cases toolsEverywhere <;> decide +kernel
  have same := changed.symm.trans (sanitised.targets.trans kept)
  exact absurd same (by decide +kernel)

end Burble.Media

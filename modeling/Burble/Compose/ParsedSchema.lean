import Burble.Compose.SchemaRoundTrip

namespace Burble

theorem FiniteMap.toList_ofList {Item : Type} {entries : List (String × Item)} (distinct : (entries.map Prod.fst).Nodup) :
    (FiniteMap.ofList entries).toList = entries := by
  rw [FiniteMap.toList, FiniteMap.ofList_entries distinct, List.map_map]
  exact List.map_id _

theorem FiniteMap.mem_ofList {Item : Type} {entries : List (String × Item)} {entry : String × Item}
    (member : entry ∈ (FiniteMap.ofList entries).toList) : entry ∈ entries := by
  obtain ⟨key, item⟩ := entry
  rw [FiniteMap.mem_toList] at member
  induction entries with
  | nil => cases member
  | cons first rest ih =>
    change (AList.insert first.1 first.2 (FiniteMap.ofList rest)).lookup key = some item at member
    rw [FiniteMap.lookup_insert_if] at member
    split at member
    next same =>
      cases member
      exact same ▸ List.mem_cons_self
    next => exact List.mem_cons_of_mem _ (ih member)

namespace SelurCompose

/-! What the readers of the schema promise of what they read. -/

section Reading
variable {parseDuration : String → Except String Nanoseconds}

theorem readTable_mem {Item : Type} {read : Json → Except String Item} {json : Json} {entries : FiniteMap String Item}
    (done : readTable read json = .ok entries) {entry : String × Item} (member : entry ∈ entries.toList) :
    ∃ value, read value = .ok entry.2 := by
  cases json with
  | object fields =>
    obtain ⟨items, all, same⟩ := Fallible.bind_ok.mp done
    cases same
    have listed := FiniteMap.mem_ofList member
    obtain ⟨field, _, made⟩ := Fallible.mapM_mem all (List.of_mem_zip listed).2
    exact ⟨_, made⟩
  | _ => cases done

theorem readOr_table_mem {Item : Type} {read : Json → Except String Item} {found : Option Json}
    {entries : FiniteMap String Item} (done : readOr (readTable read) ∅ found = .ok entries) {entry : String × Item}
    (member : entry ∈ entries.toList) : ∃ value, read value = .ok entry.2 := by
  cases found with
  | none => cases done; cases member
  | some value => exact readTable_mem done member

theorem ServiceEnv.ofJson_total {found : Option Json} {environment : ServiceEnv}
    (done : readOr ServiceEnv.ofJson .empty found = .ok environment) : environment.Total := by
  cases found with
  | none => cases done; trivial
  | some json =>
    cases json with
    | array items =>
      obtain ⟨texts, _, same⟩ := Fallible.bind_ok.mp done
      cases same
      trivial
    | object fields =>
      obtain ⟨entries, read, same⟩ := Fallible.bind_ok.mp done
      cases same
      intro entry member
      obtain ⟨value, made⟩ := readTable_mem read member
      obtain ⟨text, _, same⟩ := Fallible.bind_ok.mp made
      rw [← Except.ok.inj same]
      rfl
    | _ => cases done

theorem Service.ofJson_total {json : Json} {service : Service} (done : Service.ofJson parseDuration json = .ok service) :
    service.environment.Total := by
  simp only [Service.ofJson, Fallible.bind_ok] at done
  obtain ⟨entries, -, image, -, build, -, command, -, entrypoint, -, environment, read, done⟩ := done
  obtain ⟨_, -, _, -, _, -, _, -, _, -, _, -, _, -, _, -, _, -, _, -, _, -, _, -, _, -, _, -, _, -, _, -, _, -, _, -, _, -,
    same⟩ := done
  cases same
  exact ServiceEnv.ofJson_total read

/-- The network mode that is read is the one that its text names. -/
theorem Service.ofJson_reread {json : Json} {service : Service} (done : Service.ofJson parseDuration json = .ok service) :
    service.reread = service := by
  simp only [Service.ofJson, Fallible.bind_ok] at done
  obtain ⟨entries, -, _, -, _, -, _, -, _, -, _, -, _, -, _, -, _, -, _, -, mode, read, done⟩ := done
  obtain ⟨_, -, _, -, _, -, _, -, _, -, _, -, _, -, _, -, _, -, _, -, _, -, _, -, _, -, _, -, same⟩ := done
  have kept : mode.map NetworkMode.reread = mode := by
    cases found : entries.lookup "network_mode" with
    | none =>
      rw [found] at read
      cases read
      rfl
    | some value =>
      rw [found] at read
      obtain ⟨mode', made, same⟩ := Fallible.bind_ok.mp read
      cases same
      obtain ⟨text, -, same⟩ := Fallible.bind_ok.mp made
      cases same
      exact congrArg (fun text => some (NetworkMode.ofText text)) (NetworkMode.text_ofText text)
  cases same
  rw [Service.reread, kept]

theorem Compose.ofJson_parsed {json : Json} {compose : Compose} (done : Compose.ofJson parseDuration json = .ok compose) :
    (∀ entry ∈ compose.services.toList, entry.2.environment.Total) ∧
      ∀ entry ∈ compose.extensions.toList, entry.1 ∉ Compose.fieldNames := by
  cases json with
  | object fields =>
    simp only [Compose.ofJson, Fallible.bind_ok] at done
    obtain ⟨project, -, services, read, networks, -, volumes, -, secrets, -, configs, -, same⟩ := done
    cases same
    refine ⟨fun entry member => ?_, fun entry member => ?_⟩
    · obtain ⟨value, made⟩ := readOr_table_mem read member
      exact Service.ofJson_total made
    · have listed := List.of_mem_filter (FiniteMap.mem_ofList member)
      simpa using listed
  | _ => cases done

end Reading

section Durations

/-- A duration as its number of nanoseconds. -/
def printNanoseconds (duration : Nanoseconds) : String := String.ofList (Nat.toDigits 10 duration ++ "ns".toList)

def parseNanoseconds (text : String) : Except String Nanoseconds :=
  if "ns".toList <:+ text.toList then .ok (Nat.ofDigitChars 10 (text.toList.take (text.toList.length - 2)) 0)
  else .error "expected nanoseconds"

theorem parseNanoseconds_print (duration : Nanoseconds) :
    parseNanoseconds (printNanoseconds duration) = .ok duration := by
  have text : (printNanoseconds duration).toList = Nat.toDigits 10 duration ++ "ns".toList := String.toList_ofList
  have length : (Nat.toDigits 10 duration ++ "ns".toList).length - 2 = (Nat.toDigits 10 duration).length := by
    rw [List.length_append]
    exact Nat.add_sub_cancel _ 2
  rw [parseNanoseconds, text, if_pos (List.suffix_append _ _), length, List.take_left',
    Nat.ofDigitChars_toDigits (by decide) (by decide)]
  rfl

end Durations

end SelurCompose

end Burble

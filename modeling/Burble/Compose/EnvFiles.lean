import Burble.Bytes
import Burble.Fallible
import Burble.Compose.Schema

namespace Burble.SelurCompose.Interp

/-- Unicode white space, as `trim` removes it. -/
def isWhiteSpace (c : Char) : Bool :=
  let n := c.toNat
  (9 ≤ n && n ≤ 13) || n = 0x20 || n = 0x85 || n = 0xA0 || n = 0x1680 || (0x2000 ≤ n && n ≤ 0x200A) || n = 0x2028 ||
    n = 0x2029 || n = 0x202F || n = 0x205F || n = 0x3000

def trimEnd (text : List Char) : List Char := (text.reverse.dropWhile isWhiteSpace).reverse

def trim (text : List Char) : List Char := trimEnd (text.dropWhile isWhiteSpace)

def stripSuffix (last : Char) (line : List Char) : List Char := if line.getLast? = some last then line.dropLast else line

/-- `str::lines`, with the line gathered so far. -/
def linesFrom (line : List Char) : List Char → List (List Char)
  | [] => if line = [] then [] else [line]
  | c :: rest => if c = '\n' then stripSuffix '\r' line :: linesFrom [] rest else linesFrom (line ++ [c]) rest

def isQuoted (quote : Char) (text : List Char) : Bool := text.head? = some quote && text.getLast? = some quote

/-- Strip a matching pair of quotes, or else the white space at the end. -/
def stripQuotes (text : List Char) : List Char :=
  let text := trimEnd text
  if 2 ≤ text.length && (isQuoted '"' text || isQuoted '\'' text) then text.tail.dropLast else text

/-- `InterpError::EnvFile`. -/
structure EnvFileError where
  path : PathBuf
  reason : String
  deriving DecidableEq, Repr

/-- One line: nothing for comments, blank lines and lines without `=`. -/
def parseEnvLine (path : PathBuf) (lineNo : Nat) (raw : List Char) : Except EnvFileError (Option (String × String)) :=
  let line := trim raw
  if line = [] ∨ line.head? = some '#' ∨ '=' ∉ line then .ok none
  else
    let key := trim (line.takeWhile (· ≠ '='))
    let rawVal := (line.dropWhile (· ≠ '=')).tail
    if key = [] then .error ⟨path, s!"line {lineNo + 1}: empty key"⟩
    else .ok (some (String.ofList key, String.ofList (stripQuotes rawVal)))

def parseEnvStr (content : String) (path : PathBuf) : Except EnvFileError (List (String × String)) := do
  let pairs ← (linesFrom [] content.toList).zipIdx.mapM fun (raw, lineNo) => parseEnvLine path lineNo raw
  return pairs.filterMap id

/-- What is at a path: whether anything is, and what reading it comes to. -/
structure FileSystem where
  exist : PathBuf → Bool
  read : PathBuf → Except String (List UInt8)

/-- The first mebibyte of a file, as text. -/
def loadEnvFile (files : FileSystem) (path : PathBuf) : Except EnvFileError (List (String × String)) :=
  match files.read path with
  | .error reason => .error ⟨path, reason⟩
  | .ok bytes =>
    match ofUtf8 (bytes.take (1024 * 1024)) with
    | some content => parseEnvStr content path
    | none => .error ⟨path, "stream did not contain valid UTF-8"⟩

/-- Pairs in order of priority, with the place of each name. -/
structure EnvMap where
  entries : List (String × String)
  index : FiniteMap String Nat

namespace EnvMap

def empty : EnvMap := ⟨[], ∅⟩

/-- A pair is pushed unless its name is there. -/
def push (env : EnvMap) (pair : String × String) : EnvMap :=
  if pair.1 ∈ env.index.keys then env
  else ⟨env.entries ++ [pair], env.index.insert pair.1 env.entries.length⟩

def fromIter (pairs : List (String × String)) : EnvMap := pairs.foldl push empty

def get (env : EnvMap) (name : String) : Option String :=
  (env.index.lookup name).bind fun place => (env.entries[place]?).map Prod.snd

def withOverrides (env : EnvMap) (overrides : List (String × String)) : EnvMap :=
  env.entries.foldl push (overrides.foldl push empty)

/-- A pair of a file is kept unless its name is there. -/
def keepPair (filePairs : List (String × String)) (pair : String × String) : List (String × String) :=
  if filePairs.any fun kept => kept.1 = pair.1 then filePairs else filePairs ++ [pair]

def withEnvFiles (files : FileSystem) (env : EnvMap) (paths : List PathBuf) : Except EnvFileError EnvMap := do
  let loaded ← paths.mapM (loadEnvFile files)
  let filePairs := loaded.foldl (fun kept pairs => pairs.foldl keepPair kept) []
  return filePairs.foldl push (env.entries.foldl push empty)

end EnvMap

/-- The environment of a compose file: that of the process, the `.env` file beside it, the `--env-file` ones. -/
def buildEnv (files : FileSystem) (process : List (String × String)) (dotEnv : PathBuf) (extraEnvFiles : List PathBuf) :
    Except EnvFileError EnvMap := do
  let env := EnvMap.fromIter process
  let env ← (if files.exist dotEnv then env.withEnvFiles files [dotEnv] else .ok env)
  if extraEnvFiles.isEmpty then .ok env else env.withEnvFiles files extraEnvFiles

end Burble.SelurCompose.Interp

namespace Burble.SelurCompose.Interp
open EnvMap

/-- Every name's place is within the entries. -/
def EnvMap.Sound (env : EnvMap) : Prop :=
  ∀ name place, env.index.lookup name = some place → place < env.entries.length

theorem EnvMap.Sound.empty : EnvMap.empty.Sound := fun _ _ found => by cases found

theorem EnvMap.Sound.push {env : EnvMap} (sound : env.Sound) (pair : String × String) : (env.push pair).Sound := by
  unfold EnvMap.push
  split
  · exact sound
  · intro name place found
    rw [FiniteMap.lookup_insert_if] at found
    rw [List.length_append, List.length_singleton]
    split at found
    · cases found
      exact Nat.lt_succ_self _
    · exact Nat.lt_succ_of_lt (sound name place found)

/-- A pushed pair is found where its name was not. -/
theorem EnvMap.Sound.get_push {env : EnvMap} (sound : env.Sound) (pair : String × String) (name : String) :
    (env.push pair).get name = (env.get name).or ([pair].lookup name) := by
  obtain ⟨key, value⟩ := pair
  unfold EnvMap.push
  by_cases known : key ∈ env.index.keys
  · rw [if_pos known]
    by_cases same : name = key
    · subst same
      obtain ⟨place, found⟩ := Option.isSome_iff_exists.mp (AList.lookup_isSome.mpr (AList.mem_keys.mpr known))
      have inside := sound name place found
      simp [EnvMap.get, found, List.getElem?_eq_getElem inside]
    · simp [same]
  · rw [if_neg known]
    by_cases same : name = key
    · subst same
      have absent : env.index.lookup name = none := AList.lookup_eq_none.mpr fun member => known (AList.mem_keys.mp member)
      simp [EnvMap.get, absent]
    · have other : (env.index.insert key env.entries.length).lookup name = env.index.lookup name := AList.lookup_insert_ne same
      simp only [EnvMap.get, other, List.lookup_singleton, beq_iff_eq, if_neg same, Option.or_none]
      cases found : env.index.lookup name with
      | none => rfl
      | some place =>
        have inside := sound name place found
        simp only [Option.bind_some, List.getElem?_append_left inside]

theorem EnvMap.Sound.pushAll {env : EnvMap} (sound : env.Sound) (pairs : List (String × String)) :
    (pairs.foldl EnvMap.push env).Sound ∧
      ∀ name, (pairs.foldl EnvMap.push env).get name = (env.get name).or (pairs.lookup name) := by
  induction pairs generalizing env with
  | nil => exact ⟨sound, fun name => by simp⟩
  | cons pair rest ih =>
    obtain ⟨whole, found⟩ := ih (sound.push pair)
    refine ⟨whole, fun name => ?_⟩
    have split : ([pair] ++ rest).lookup name = ([pair].lookup name).or (rest.lookup name) := List.lookup_append
    rw [List.singleton_append] at split
    rw [List.foldl_cons, found, sound.get_push, Option.or_assoc, split]

theorem pushAll_empty (pairs : List (String × String)) : (pairs.foldl EnvMap.push EnvMap.empty).Sound ∧
    ∀ name, (pairs.foldl EnvMap.push EnvMap.empty).get name = pairs.lookup name := by
  obtain ⟨sound, found⟩ := EnvMap.Sound.empty.pushAll pairs
  exact ⟨sound, fun name => found name⟩

/-- The entries say what the index finds. -/
structure EnvMap.Lists (env : EnvMap) : Prop where
  sound : env.Sound
  entries (name : String) : env.entries.lookup name = env.get name

theorem EnvMap.Lists.empty : EnvMap.empty.Lists := ⟨.empty, fun _ => rfl⟩

theorem EnvMap.Lists.push {env : EnvMap} (lists : env.Lists) (pair : String × String) : (env.push pair).Lists := by
  refine ⟨lists.sound.push pair, fun name => ?_⟩
  obtain ⟨key, value⟩ := pair
  rw [lists.sound.get_push, ← lists.entries]
  unfold EnvMap.push
  split
  next known =>
    by_cases same : name = key
    · obtain ⟨place, found⟩ := Option.isSome_iff_exists.mp (AList.lookup_isSome.mpr (AList.mem_keys.mpr known))
      have inside := lists.sound _ place found
      have there : env.entries.lookup name = some env.entries[place].2 := by
        rw [lists.entries, same, EnvMap.get, found, Option.bind_some, List.getElem?_eq_getElem inside, Option.map_some]
      rw [there, Option.some_or]
    · simp [same]
  next => exact List.lookup_append

theorem EnvMap.Lists.pushAll {env : EnvMap} (lists : env.Lists) (pairs : List (String × String)) :
    (pairs.foldl EnvMap.push env).Lists := by
  induction pairs generalizing env with
  | nil => exact lists
  | cons pair rest ih => exact ih (lists.push pair)

theorem lookup_keepPair (kept : List (String × String)) (pair : String × String) (name : String) :
    (keepPair kept pair).lookup name = (kept.lookup name).or ([pair].lookup name) := by
  obtain ⟨key, value⟩ := pair
  unfold keepPair
  split
  next known =>
    by_cases same : name = key
    · obtain ⟨other, member, isSame⟩ := List.any_eq_true.mp known
      have there : (kept.lookup name).isSome = true :=
        List.lookup_isSome_iff.mpr ⟨other, member, by rw [same, beq_iff_eq]; exact (of_decide_eq_true isSame).symm⟩
      obtain ⟨value, found⟩ := Option.isSome_iff_exists.mp there
      rw [found, Option.some_or]
    · simp [same]
  next => exact List.lookup_append

theorem lookup_keepPairs (kept pairs : List (String × String)) (name : String) :
    (pairs.foldl keepPair kept).lookup name = (kept.lookup name).or (pairs.lookup name) := by
  induction pairs generalizing kept with
  | nil => simp
  | cons pair rest ih =>
    have split : ([pair] ++ rest).lookup name = ([pair].lookup name).or (rest.lookup name) := List.lookup_append
    rw [List.singleton_append] at split
    rw [List.foldl_cons, ih, lookup_keepPair, Option.or_assoc, split]

/-- Of the loaded files the first that defines a name counts. -/
theorem lookup_files (loaded : List (List (String × String))) (kept : List (String × String)) (name : String) :
    (loaded.foldl (fun kept pairs => pairs.foldl keepPair kept) kept).lookup name =
      (kept.lookup name).or (loaded.findSome? fun pairs => pairs.lookup name) := by
  induction loaded generalizing kept with
  | nil => simp
  | cons pairs rest ih =>
    rw [List.foldl_cons, ih, lookup_keepPairs, Option.or_assoc, List.findSome?_cons]
    cases pairs.lookup name <;> rfl

variable {files : FileSystem} {env after : EnvMap} {paths : List PathBuf}

theorem withEnvFiles_ok (lists : env.Lists) (made : env.withEnvFiles files paths = .ok after) :
    ∃ loaded, paths.mapM (loadEnvFile files) = .ok loaded ∧ after.Lists ∧
      ∀ name, after.get name = (env.get name).or (loaded.findSome? fun pairs => pairs.lookup name) := by
  obtain ⟨loaded, read, made⟩ := Fallible.bind_ok.mp made
  cases made
  obtain ⟨sound, found⟩ := pushAll_empty env.entries
  refine ⟨loaded, read, (EnvMap.Lists.empty.pushAll env.entries).pushAll _, fun name => ?_⟩
  rw [(sound.pushAll _).2, found, lists.entries, lookup_files]
  rfl

/-- The env files in the order of the list: the `.env` file, then those that are passed. -/
def envFilePaths (files : FileSystem) (dotEnv : PathBuf) (extraEnvFiles : List PathBuf) : List PathBuf :=
  (if files.exist dotEnv then [dotEnv] else []) ++ extraEnvFiles

theorem buildEnv_ok {process : List (String × String)} {dotEnv : PathBuf} {extra : List PathBuf}
    (built : buildEnv files process dotEnv extra = .ok env) :
    ∃ loaded, (envFilePaths files dotEnv extra).mapM (loadEnvFile files) = .ok loaded ∧ env.Lists ∧
      ∀ name, env.get name = (process.lookup name).or (loaded.findSome? fun pairs => pairs.lookup name) := by
  obtain ⟨withDotEnv, first, second⟩ := Fallible.bind_ok.mp built
  have base : ∃ loaded, (if files.exist dotEnv then [dotEnv] else []).mapM (loadEnvFile files) = .ok loaded ∧
      withDotEnv.Lists ∧
      ∀ name, withDotEnv.get name = (process.lookup name).or (loaded.findSome? fun pairs => pairs.lookup name) := by
    have startLists : (fromIter process).Lists := EnvMap.Lists.empty.pushAll process
    have start : ∀ name, (fromIter process).get name = process.lookup name := (pushAll_empty process).2
    split at first
    · obtain ⟨loaded, read, lists, found⟩ := withEnvFiles_ok startLists first
      exact ⟨loaded, by simp [*], lists, fun name => by rw [found, start]⟩
    · cases first
      exact ⟨[], by simp [*]; rfl, startLists, fun name => by simp [start]⟩
  obtain ⟨loaded, read, lists, found⟩ := base
  split at second
  next none =>
    cases second
    rw [List.isEmpty_iff] at none
    exact ⟨loaded, by rw [envFilePaths, none, List.append_nil, read], lists, found⟩
  next =>
    obtain ⟨more, readMore, wholeLists, foundMore⟩ := withEnvFiles_ok lists second
    refine ⟨loaded ++ more, ?_, wholeLists, fun name => ?_⟩
    · rw [envFilePaths, List.mapM_append, read, readMore]
      rfl
    · rw [foundMore, found, Option.or_assoc, List.findSome?_append]

/-- The documented value of a name: that of the overrides, of the process, of the last file that defines it. -/
def precedence (overrides process : List (String × String)) (loaded : List (List (String × String))) (name : String) :
    Option String :=
  (overrides.lookup name).or ((process.lookup name).or (loaded.reverse.findSome? fun pairs => pairs.lookup name))

theorem withOverrides_get (lists : env.Lists) (overrides : List (String × String)) (name : String) :
    (env.withOverrides overrides).get name = (overrides.lookup name).or (env.get name) := by
  obtain ⟨sound, found⟩ := pushAll_empty overrides
  rw [EnvMap.withOverrides, (sound.pushAll _).2, found, lists.entries]

theorem or_eq_or_iff {α : Type*} (one first second : Option α) :
    one.or first = one.or second ↔ one.isSome ∨ first = second := by
  cases one <;> simp

/-- A lookup is as documented for the names of the overrides and the process, and for those that the first and the last
env file defining them agree on. -/
theorem get_precedence_iff {process : List (String × String)} {dotEnv : PathBuf} {extra : List PathBuf}
    (built : buildEnv files process dotEnv extra = .ok env) :
    ∃ loaded, (envFilePaths files dotEnv extra).mapM (loadEnvFile files) = .ok loaded ∧
      ∀ overrides name, (env.withOverrides overrides).get name = precedence overrides process loaded name ↔
        (overrides.lookup name).isSome ∨ (process.lookup name).isSome ∨
          (loaded.findSome? fun pairs => pairs.lookup name) = loaded.reverse.findSome? fun pairs => pairs.lookup name := by
  obtain ⟨loaded, read, lists, found⟩ := buildEnv_ok built
  refine ⟨loaded, read, fun overrides name => ?_⟩
  rw [withOverrides_get lists, found, precedence, or_eq_or_iff, or_eq_or_iff]

/-- A `.env` file and a second file that give one name different values. -/
def keyFiles : FileSystem where
  exist path := path = ".env"
  read path := if path = ".env" then .ok (utf8 "KEY=project") else .ok (utf8 "KEY=passed")

theorem get_precedence_passed : ((EnvMap.fromIter [("KEY", "passed")]).withOverrides []).get "KEY" =
    precedence [] [] [[("KEY", "passed")]] "KEY" := by
  have built : buildEnv keyFiles [] "absent" ["prod.env"] = .ok (EnvMap.fromIter [("KEY", "passed")]) := by rfl
  obtain ⟨loaded, read, exact⟩ := get_precedence_iff built
  have same : loaded = [[("KEY", "passed")]] := (Except.ok.inj read).symm
  subst same
  exact (exact [] "KEY").mpr (by decide)

/-- The project's `.env` file wins over the file that is passed. -/
theorem dotEnv_wins : ∃ loaded, buildEnv keyFiles [] ".env" ["prod.env"] = .ok (EnvMap.fromIter [("KEY", "project")]) ∧
    (envFilePaths keyFiles ".env" ["prod.env"]).mapM (loadEnvFile keyFiles) = .ok loaded ∧
    precedence [] [] loaded "KEY" = some "passed" ∧
    ((EnvMap.fromIter [("KEY", "project")]).withOverrides []).get "KEY" = some "project" :=
  ⟨[[("KEY", "project")], [("KEY", "passed")]], by rfl, by rfl, by decide, by decide⟩

end Burble.SelurCompose.Interp

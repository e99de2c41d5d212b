import OpenAgent.Tasks.NoLostUpdate
import OpenAgent.Tasks.RecordCache

/-!
# The record cache against a store without one

A cached record is right as long as the file that has its pair now is the one that it
was parsed from.  Where a file is looked up before it is read, a change between the two
files the record under a pair that never comes back.  Where a store reads a file and
looks it up afterwards, the record may go with the pair of a later file; so the cache is
coherent as long as that look meets the file that was read.
-/

namespace OpenAgent.Tasks

open Library

namespace CachedStore

/-- No write gives a file a pair that it has had before. -/
def StatsChange (_ : CachedStore) (_ : StoreLabel) (after : CachedStore) : Prop :=
  after.history.Nodup

/-- The file that `cacheSet` is about to look up, and what it read there. -/
def lookingUp : StorePoint → Option (String × TaskRecord × List String)
  | .cacheStating path record warnings => some (path, record, warnings)
  | _ => none

section

variable (format : RecordFormat)

/-- Where `cacheSet` looks a file up, it has the text that was read. -/
def LooksUpWhatItRead (before : CachedStore) (label : StoreLabel) (_ : CachedStore) : Prop :=
  match label with
  | .proceed _ => ∀ read ∈ lookingUp before.point, ∀ version ∈ mapGet before.files read.1,
      format.parse read.1 version.text = .ok read.2
  | _ => True

instance (before : CachedStore) :
    ∀ label after, Decidable (LooksUpWhatItRead format before label after) := by
  intro label after
  unfold LooksUpWhatItRead
  split <;> infer_instance

section

variable (moments : List RecordFiles)

/-- A store without a cache could have read this during the call. -/
def OnDisk (path : String) (outcome : ReadOutcome) : Prop :=
  ∃ files ∈ moments, outcome = readRecord format files path

/-- A load returns what was on disk at some moment of the call; a listing goes through
the files of one moment, and for each of them says what was on disk at some moment. -/
def FromDisk : StoreResult → Prop
  | .loaded path result =>
    ∃ outcome, OnDisk format moments path outcome ∧ result = outcome.map (·.map Prod.fst)
  | .listed result =>
    ∃ files ∈ moments, ∃ outcomes : List (String × ReadOutcome),
      outcomes.map Prod.fst = sortedNames files ∧
      (∀ entry ∈ outcomes, OnDisk format moments entry.1 entry.2) ∧
      result = listResult outcomes

/-- What the last call returned. -/
def ReturnsFromDisk (state : CachedStore) : Prop :=
  ∀ result, state.returned = some result → FromDisk format state.moments result

/-- An entry fits the file that has its pair. -/
def Fits (files : RecordFiles) (path : String) (entry : CacheEntry) : Prop :=
  ∀ version, mapGet files path = some version → version.stat = entry.stat →
    format.parse path version.text = .ok (entry.record, entry.warnings)

/-- The done part of a listing was on disk, and the names are those of one moment. -/
def Underway (path : String) (listing : Listing) : Prop :=
  ∃ files ∈ moments,
    listing.outcomes.map Prod.fst ++ path :: listing.remaining = sortedNames files ∧
      ∀ entry ∈ listing.outcomes, OnDisk format moments entry.1 entry.2

end

/-- The pair of a file that is about to be read is an old one, and a listing is on its
way. -/
def PointSound (state : CachedStore) : StorePoint → Prop
  | .stating path listing => ∀ some ∈ listing, Underway format state.moments path some
  | .reading path found listing =>
    (path, found) ∈ state.history ∧ ∀ some ∈ listing, Underway format state.moments path some
  | _ => True

structure Coherent (state : CachedStore) : Prop where
  known : ∀ path version, mapGet state.files path = some version →
    (path, version.stat) ∈ state.history
  cached : ∀ path entry, mapGet state.cache path = some entry →
    (path, entry.stat) ∈ state.history ∧ Fits format state.files path entry
  current : state.point = .idle ∨ state.files ∈ state.moments
  point : PointSound format state state.point
  returns : ReturnsFromDisk format state

end

theorem coherent_opened : Coherent format opened where
  known := by
    intro path version isFile
    cases isFile
  cached := by
    intro path entry isEntry
    cases isEntry
  current := .inl rfl
  point := trivial
  returns := by
    intro result isResult
    cases isResult

variable {moments : List RecordFiles}

theorem OnDisk.mono (onDisk : OnDisk format moments path outcome)
    (more : ∀ files ∈ moments, files ∈ later) : OnDisk format later path outcome := by
  obtain ⟨files, member, isOutcome⟩ := onDisk
  exact ⟨files, more files member, isOutcome⟩

theorem FromDisk.mono (fromDisk : FromDisk format moments result)
    (more : ∀ files ∈ moments, files ∈ later) : FromDisk format later result := by
  cases result with
  | loaded path loaded =>
    obtain ⟨outcome, onDisk, isResult⟩ := fromDisk
    exact ⟨outcome, onDisk.mono more, isResult⟩
  | listed listed =>
    obtain ⟨files, member, outcomes, names, onDisk, isResult⟩ := fromDisk
    exact ⟨files, more files member, outcomes, names,
      fun entry isEntry => (onDisk entry isEntry).mono more, isResult⟩

theorem Underway.mono (underway : Underway format moments path listing)
    (more : ∀ files ∈ moments, files ∈ later) : Underway format later path listing := by
  obtain ⟨files, member, names, onDisk⟩ := underway
  exact ⟨files, more files member, names, fun entry isEntry => (onDisk entry isEntry).mono more⟩

/-- The files as they are now join the moments of the call. -/
theorem Coherent.noteMoment
    (known : ∀ path version, mapGet state.files path = some version →
      (path, version.stat) ∈ state.history)
    (cached : ∀ path entry, mapGet state.cache path = some entry →
      (path, entry.stat) ∈ state.history ∧ Fits format state.files path entry)
    (point : PointSound format state state.point)
    (returns : ReturnsFromDisk format state) : Coherent format state.noteMoment := by
  have more : ∀ files ∈ state.moments, files ∈ state.moments ++ [state.files] :=
    fun files member => List.mem_append_left _ member
  unfold CachedStore.noteMoment
  split
  next isIdle => exact ⟨known, cached, .inl isIdle, point, returns⟩
  next busy =>
    refine ⟨known, cached, .inr (List.mem_append_right _ List.mem_cons_self), ?_,
      fun result isResult => (returns result isResult).mono more⟩
    revert point
    cases state.point with
    | stating path listing => exact fun underway some isSome => (underway some isSome).mono more
    | reading path found listing =>
      exact fun sound => ⟨sound.1, fun some isSome => (sound.2 some isSome).mono more⟩
    | _ => exact fun _ => trivial

theorem readRecord_of_file {files : RecordFiles} (isFile : mapGet files path = some version) :
    readRecord format files path = (format.parse path version.text).map some := by
  rw [readRecord, isFile]

theorem history_noteMoment (state : CachedStore) : state.noteMoment.history = state.history := by
  unfold CachedStore.noteMoment
  split <;> rfl

section

variable (coherent : Coherent format state)
include coherent

/-- A file under a pair that it has not had before. -/
theorem Coherent.writeFile (text : String) (fresh : (state.history ++ [(path, stat)]).Nodup) :
    (∀ other version, mapGet (state.writeFile path text stat).files other = some version →
        (other, version.stat) ∈ (state.writeFile path text stat).history) ∧
      ∀ other entry, mapGet (state.writeFile path text stat).cache other = some entry →
        (other, entry.stat) ∈ (state.writeFile path text stat).history ∧
          Fits format (state.writeFile path text stat).files other entry := by
  have isNew : (path, stat) ∉ state.history := by
    intro member
    exact (List.nodup_append.mp fresh).2.2 _ member _ List.mem_cons_self rfl
  constructor
  · intro other version isFile
    rw [CachedStore.writeFile, mapGet_mapSet] at isFile
    split at isFile
    next same =>
      cases isFile
      exact List.mem_append_right _ (by rw [same]; exact List.mem_cons_self)
    next => exact List.mem_append_left _ (coherent.known other version isFile)
  · intro other entry isEntry
    obtain ⟨isOld, fits⟩ := coherent.cached other entry isEntry
    refine ⟨List.mem_append_left _ isOld, ?_⟩
    intro version isFile sameStat
    rw [CachedStore.writeFile, mapGet_mapSet] at isFile
    split at isFile
    next same =>
      cases isFile
      have isStat : stat = entry.stat := sameStat
      exact absurd (isStat ▸ same ▸ isOld) isNew
    next => exact fits version isFile sameStat

/-- An entry made from the file that has its pair, if one has it. -/
theorem Coherent.cacheEntry (isOld : (path, entry.stat) ∈ state.history)
    (fits : Fits format state.files path entry) :
    ∀ other found, mapGet (mapSet state.cache path entry) other = some found →
      (other, found.stat) ∈ state.history ∧ Fits format state.files other found := by
  intro other found isEntry
  rw [mapGet_mapSet] at isEntry
  split at isEntry
  next same =>
    cases isEntry
    rw [same]
    exact ⟨isOld, fits⟩
  next => exact coherent.cached other found isEntry

/-- The files of the moment are among those of the call. -/
theorem Coherent.onDisk (busy : state.point ≠ .idle) (path : String) :
    OnDisk format state.moments path (readRecord format state.files path) :=
  ⟨state.files, coherent.current.resolve_left busy, rfl⟩

end

/-- Behind a file whose outcome was on disk. -/
theorem Coherent.settle
    (known : ∀ path version, mapGet state.files path = some version →
      (path, version.stat) ∈ state.history)
    (cached : ∀ path entry, mapGet state.cache path = some entry →
      (path, entry.stat) ∈ state.history ∧ Fits format state.files path entry)
    (returns : ReturnsFromDisk format state)
    (onDisk : OnDisk format state.moments path outcome)
    (underway : ∀ some ∈ listing, Underway format state.moments path some) :
    Coherent format (state.settle path outcome listing).noteMoment := by
  cases listing with
  | none =>
    refine .noteMoment known cached trivial ?_
    intro result isResult
    cases isResult
    exact ⟨outcome, onDisk, rfl⟩
  | some listing =>
    obtain ⟨files, member, names, before⟩ := underway listing rfl
    have done : ∀ entry ∈ listing.outcomes ++ [(path, outcome)],
        OnDisk format state.moments entry.1 entry.2 := by
      intro entry isEntry
      rcases List.mem_append.mp isEntry with isBefore | isLast
      · exact before entry isBefore
      · rw [List.mem_singleton.mp isLast]
        exact onDisk
    unfold CachedStore.settle
    dsimp only
    cases remaining : listing.remaining with
    | nil =>
      refine .noteMoment known ?_ trivial ?_
      · intro other entry isEntry
        rw [CachedStore.finishList, mapGet_filter state.cache (· ∈ listing.seen)] at isEntry
        split at isEntry
        next => exact cached other entry isEntry
        next => cases isEntry
      · intro result isResult
        cases isResult
        refine ⟨files, member, _, ?_, done, rfl⟩
        rw [List.map_append, ← names, remaining]
        rfl
    | cons following later =>
      refine .noteMoment known cached ?_ returns
      intro some isSome
      cases isSome
      refine ⟨files, member, ?_, done⟩
      rw [← names, remaining, List.map_append, List.append_assoc]
      rfl

theorem Coherent.operate (coherent : Coherent format state) (fresh : after.history.Nodup)
    (looksUp : ∀ path record warnings, state.point = .cacheStating path record warnings →
      ∀ version ∈ mapGet state.files path, format.parse path version.text = .ok (record, warnings))
    (operated : state.operate format stat = some after) : Coherent format after.noteMoment := by
  have busy : state.point ≠ .idle := by
    intro isIdle
    rw [CachedStore.operate, isIdle] at operated
    cases operated
  have pointSound := coherent.point
  unfold CachedStore.operate at operated
  split at operated
  next isIdle => exact absurd isIdle busy
  next path created isPoint =>
    split at operated <;> cases operated
    next => exact .noteMoment coherent.known coherent.cached trivial coherent.returns
    next =>
      obtain ⟨known, cached⟩ := coherent.writeFile (format.render created) fresh
      exact .noteMoment known cached trivial coherent.returns
  next path requested isPoint =>
    split at operated
    next =>
      split at operated <;> cases operated <;>
        exact .noteMoment coherent.known coherent.cached trivial coherent.returns
    next =>
      cases operated
      exact .noteMoment coherent.known coherent.cached trivial coherent.returns
  next path written isPoint =>
    cases operated
    obtain ⟨known, cached⟩ := coherent.writeFile (format.render written) fresh
    exact .noteMoment known cached trivial coherent.returns
  next path isPoint =>
    split at operated <;> cases operated <;>
      exact .noteMoment coherent.known coherent.cached trivial coherent.returns
  next path record warnings isPoint =>
    split at operated <;> cases operated
    next => exact .noteMoment coherent.known coherent.cached trivial coherent.returns
    next version isFile =>
      refine .noteMoment coherent.known ?_ trivial coherent.returns
      apply coherent.cacheEntry (coherent.known path version isFile)
      intro other isOther _
      rw [isFile] at isOther
      cases isOther
      exact looksUp path record warnings isPoint version isFile
  next isPoint =>
    split at operated <;> cases operated
    next none =>
      refine .noteMoment coherent.known ?_ trivial ?_
      · intro other entry isEntry
        rw [CachedStore.finishList, mapGet_filter state.cache (· ∈ [])] at isEntry
        split at isEntry
        next => exact coherent.cached other entry isEntry
        next => cases isEntry
      · intro result isResult
        cases isResult
        refine ⟨state.files, coherent.current.resolve_left busy, [], none.symm, ?_, rfl⟩
        intro entry isEntry
        cases isEntry
    next path remaining names =>
      refine .noteMoment coherent.known coherent.cached ?_ coherent.returns
      intro some isSome
      cases isSome
      refine ⟨state.files, coherent.current.resolve_left busy, names.symm, ?_⟩
      intro entry isEntry
      cases isEntry
  next path listing isPoint =>
    rw [isPoint] at pointSound
    split at operated
    next absent =>
      cases operated
      refine .settle coherent.known ?_ coherent.returns ?_ pointSound
      · exact fun other entry isEntry => coherent.cached other entry (mapGet_of_mapDelete isEntry)
      · have onDisk := coherent.onDisk busy path
        rwa [readRecord, absent] at onDisk
    next version isFile =>
      have reads : PointSound format state (.reading path version.stat listing) :=
        ⟨coherent.known path version isFile, pointSound⟩
      split at operated
      next hit isHit =>
        split at operated <;> cases operated
        next same =>
          refine .settle coherent.known coherent.cached coherent.returns ?_ pointSound
          have parsed := (coherent.cached path hit isHit).2 version isFile same.symm
          have onDisk := coherent.onDisk busy path
          rwa [readRecord_of_file isFile, parsed] at onDisk
        next => exact .noteMoment coherent.known coherent.cached reads coherent.returns
      next =>
        cases operated
        exact .noteMoment coherent.known coherent.cached reads coherent.returns
  next path found listing isPoint =>
    rw [isPoint] at pointSound
    have onDisk := coherent.onDisk busy path
    split at operated
    next record warnings isRead =>
      cases operated
      rw [isRead] at onDisk
      refine .settle coherent.known ?_ coherent.returns onDisk pointSound.2
      apply coherent.cacheEntry pointSound.1
      intro version isFile _
      rw [readRecord_of_file isFile] at isRead
      cases parsed : format.parse path version.text with
      | error message =>
        rw [parsed] at isRead
        cases isRead
      | ok pair =>
        rw [parsed] at isRead
        cases isRead
        rfl
    next =>
      cases operated
      exact .settle coherent.known coherent.cached coherent.returns onDisk pointSound.2

theorem coherent_step (state : CachedStore) (label : StoreLabel) (next : CachedStore)
    (coherent : Coherent format state)
    (meets : StatsChange state label next ∧ LooksUpWhatItRead format state label next)
    (stepped : step format state label = some next) : Coherent format next := by
  obtain ⟨fresh, looksUp⟩ := meets
  cases label with
  | call requested =>
    simp only [step] at stepped
    split at stepped <;> cases stepped
    refine ⟨coherent.known, coherent.cached, .inr List.mem_cons_self, ?_, ?_⟩
    · cases requested with
      | load taskId =>
        intro some isSome
        cases isSome
      | _ => trivial
    · intro result isResult
      cases isResult
  | proceed stat =>
    obtain ⟨after, operated, rfl⟩ := Option.map_eq_some_iff.mp stepped
    refine coherent.operate ?_ ?_ operated
    · unfold StatsChange at fresh
      rwa [history_noteMoment] at fresh
    · intro path record warnings isPoint
      have looks : ∀ read ∈ lookingUp state.point, ∀ version ∈ mapGet state.files read.1,
          format.parse read.1 version.text = .ok read.2 := looksUp
      exact looks (path, record, warnings) (by rw [isPoint]; rfl)
  | foreignWrite path version =>
    cases stepped
    unfold StatsChange at fresh
    rw [history_noteMoment] at fresh
    obtain ⟨known, cached⟩ := coherent.writeFile version.text fresh
    refine .noteMoment known cached ?_ coherent.returns
    have pointSound := coherent.point
    change PointSound format _ state.point
    revert pointSound
    cases state.point with
    | reading other found listing => exact fun sound => ⟨List.mem_append_left _ sound.1, sound.2⟩
    | _ => exact fun sound => sound
  | foreignRemove path =>
    cases stepped
    refine .noteMoment ?_ ?_ coherent.point coherent.returns
    · exact fun other version isFile => coherent.known other version (mapGet_of_mapDelete isFile)
    · intro other entry isEntry
      obtain ⟨isOld, fits⟩ := coherent.cached other entry isEntry
      refine ⟨isOld, fun version isFile => ?_⟩
      rw [mapGet_mapDelete] at isFile
      split at isFile
      next => cases isFile
      next => exact fits version isFile

/-- In a run in which no file has a pair twice and `cacheSet` looks up what it has read,
every load and every listing returns what was on disk during the call. -/
theorem returnsFromDisk_of_looksUp (format : RecordFormat) (labels : List StoreLabel)
    (final : CachedStore) (reached : execute (step format) opened labels = some final)
    (statsChange : EveryStep (step format) StatsChange opened labels)
    (looksUp : EveryStep (step format) (LooksUpWhatItRead format) opened labels) :
    ReturnsFromDisk format final :=
  (invariant_of_execute coherent_step coherent_opened reached (statsChange.and looksUp)).returns

/-- A text with a stroke for each run of one task, the first one included. -/
def strokeFormat : RecordFormat where
  render := fun record => String.ofList (List.replicate (record.runEpoch + 1) 'i')
  parse := fun _ text =>
    match text.toList with
    | [] => .error "not a record"
    | _ :: strokes => .ok ({ sharedRecord with runEpoch := strokes.length }, [])

/-- A change from outside behind a whole save: the load reads the file again. -/
theorem returnsFromDisk_of_looksUp_changed :
    ∃ final, execute (step strokeFormat) opened
        [.call (.save sharedRecord), .proceed ⟨1, 1⟩, .proceed ⟨1, 1⟩, .proceed ⟨1, 1⟩,
          .foreignWrite "st_1.json" ⟨"ii", ⟨2, 2⟩⟩, .call (.load "st_1"), .proceed ⟨3, 1⟩,
          .proceed ⟨3, 1⟩] = some final ∧
      ReturnsFromDisk strokeFormat final := by
  have observed : (execute (step strokeFormat) opened
      [.call (.save sharedRecord), .proceed ⟨1, 1⟩, .proceed ⟨1, 1⟩, .proceed ⟨1, 1⟩,
        .foreignWrite "st_1.json" ⟨"ii", ⟨2, 2⟩⟩, .call (.load "st_1"), .proceed ⟨3, 1⟩,
        .proceed ⟨3, 1⟩]).isSome = true := by decide +kernel
  obtain ⟨final, reached⟩ := Option.isSome_iff_exists.mp observed
  exact ⟨final, reached, returnsFromDisk_of_looksUp _ _ final reached
    (by unfold StatsChange; decide +kernel) (by decide +kernel)⟩

/-- The file changes after `cacheSet` has read it and before it looks it up. -/
def changedInBetween : List StoreLabel :=
  [.call (.save sharedRecord), .proceed ⟨1, 1⟩, .proceed ⟨1, 1⟩,
    .foreignWrite "st_1.json" ⟨"ii", ⟨2, 2⟩⟩, .proceed ⟨1, 1⟩, .call (.load "st_1"),
    .proceed ⟨3, 1⟩]

/-- A load returned what a store without a cache could have read in the call. -/
def loadedFromDisk (format : RecordFormat) (state : CachedStore) : Bool :=
  match state.returned with
  | some (.loaded path result) =>
    result ∈ state.moments.map fun files =>
      (readRecord format files path).map (·.map Prod.fst)
  | _ => true

theorem loadedFromDisk_of_returnsFromDisk (returns : ReturnsFromDisk format state) :
    loadedFromDisk format state = true := by
  unfold loadedFromDisk
  split
  next path result isResult =>
    obtain ⟨outcome, ⟨files, member, rfl⟩, isOutcome⟩ := returns _ isResult
    exact decide_eq_true (List.mem_map.mpr ⟨files, member, isOutcome.symm⟩)
  next => rfl

theorem not_returnsFromDisk_changedInBetween :
    ¬ ∀ format labels final, execute (step format) opened labels = some final →
      EveryStep (step format) StatsChange opened labels → ReturnsFromDisk format final := by
  intro returnsFromDisk
  obtain ⟨final, reached, notFromDisk⟩ :
      ∃ final, execute (step strokeFormat) opened changedInBetween = some final ∧
        loadedFromDisk strokeFormat final = false := by
    decide +kernel
  have statsChange : EveryStep (step strokeFormat) StatsChange opened changedInBetween := by
    unfold StatsChange
    decide +kernel
  have fromDisk := loadedFromDisk_of_returnsFromDisk
    (returnsFromDisk strokeFormat changedInBetween final reached statsChange)
  rw [notFromDisk] at fromDisk
  cases fromDisk

end CachedStore

end OpenAgent.Tasks

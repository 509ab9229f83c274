import BucketMigration.Proofs.Store.Alike
import Mathlib.Data.List.Nodup
import Mathlib.Logic.Function.Basic
import Std.Data.String.ToNat

/-!
# What many tasks leave in the stores

Several tasks share the stores of a migration. The objects of both sides are those of the beginning
and what tasks have written since, where the last write to a key counts. The open uploads are those of
the beginning and what tasks hold, each its own. Here is what each change of the target makes of it.
-/

namespace BucketMigration

namespace Store

/-- No upload that is open has an id that is still to be given away. -/
def FreshIds (s : Store) : Prop :=
  ∀ n, s.nextId ≤ n → s!"upload-{n}" ∉ s.uploads

/-- The same objects and uploads; no faults when there were none before. -/
structure Still (s t : Store) : Prop where
  objects : t.object? = s.object?
  uploads : t.uploads = s.uploads
  omitsEtags : t.omitsEtags = s.omitsEtags
  nextId : t.nextId = s.nextId
  faults : s.faults = [] → t.faults = []

variable {s : Store}

theorem Alike.still {t : Store} (h : s.Alike t) : s.Still t :=
  ⟨h.objects, h.uploads, h.omitsEtags, h.nextId, fun hnone => h.faults.trans hnone⟩

theorem still_enter (s : Store) (r : Request) : s.Still (s.enter r).2 := by
  refine ⟨s.object?_enter r, s.uploads_enter r, ?_, ?_, ?_⟩
  · simp only [enter]
    split
    · rfl
    · split <;> rfl
  · simp only [enter]
    split
    · rfl
    · split <;> rfl
  · intro hnone
    exact (enter_of_faults_eq_nil hnone r).2.faults.trans hnone

theorem ne_of_lt {n m : Nat} (h : n < m) : s!"upload-{n}" ≠ s!"upload-{m}" := by
  intro heq
  have hrepr : n.repr = m.repr := by simpa using heq
  exact Nat.ne_of_lt h (Nat.repr_injective hrepr)

theorem FreshIds.not_mem (h : s.FreshIds) : s.uploadId ∉ s.uploads :=
  h s.nextId (Nat.le_refl _)

theorem FreshIds.createUpload (h : s.FreshIds) (bucket key : String) :
    (s.createUpload bucket key).FreshIds := by
  intro n hn
  have hlt : s.nextId < n := hn
  rw [Store.createUpload, Std.TreeMap.mem_insert, not_or]
  refine ⟨?_, h n (Nat.le_of_lt hlt)⟩
  rw [Std.compare_eq_iff_eq]
  exact ne_of_lt hlt

theorem FreshIds.of_subset {t : Store} (h : s.FreshIds) (hid : s.nextId ≤ t.nextId)
    (huploads : ∀ id, id ∈ t.uploads → id ∈ s.uploads) : t.FreshIds :=
  fun n hn hmem => h n (Nat.le_trans hid hn) (huploads _ hmem)

theorem freshIds_of_uploads_empty (h : s.uploads = {}) : s.FreshIds := by
  intro n _
  rw [h]
  exact Std.TreeMap.not_mem_emptyc

/-- Every call leaves ids to be given away that no upload has. -/
theorem FreshIds.finish (h : s.FreshIds) (now : Int) (r : Request) : (s.finish now r).2.FreshIds := by
  have hperform : (s.perform now r).2.FreshIds := by
    cases r with
    | list | head | get => exact h
    | put bucket key data => exact h.of_subset (Nat.le_succ _) fun _ hmem => hmem
    | createUpload bucket key => exact h.createUpload bucket key
    | uploadPart bucket key id part data =>
      simp only [perform, uploadPart]
      split
      · exact h.of_subset (Nat.le_succ _) fun _ hmem => hmem
      · rename_i session hsession
        refine h.of_subset (Nat.le_succ _) fun other hmem => ?_
        rw [Std.TreeMap.mem_insert, Std.compare_eq_iff_eq] at hmem
        rcases hmem with rfl | hold
        · rw [Std.TreeMap.mem_iff_isSome_getElem?,
            ((session?_eq_some_iff s).mp hsession).1]
          rfl
        · exact hold
    | completeUpload bucket key id parts =>
      simp only [perform, completeUpload]
      split
      · exact h
      · split
        · exact h
        · split
          · exact h
          · split
            · exact h
            · refine h.of_subset (Nat.le_succ _) fun other hmem => ?_
              exact (Std.TreeMap.mem_erase.mp hmem).2
    | abortUpload bucket key id =>
      simp only [perform, abortUpload]
      split
      · exact h.of_subset (Nat.le_refl _) fun other hmem => (Std.TreeMap.mem_erase.mp hmem).2
      · exact h
  simp only [Store.finish]
  split
  · exact hperform.of_subset (Nat.le_refl _) fun _ hmem => hmem
  · exact hperform

end Store

structure Write where
  task : Nat
  key : String
  object : StoredObject

def latest? (writes : List Write) (key : String) : Option Write :=
  (writes.filter fun e => e.key == key).getLast?

theorem latest?_snoc (writes : List Write) (e : Write) (key : String) :
    latest? (writes ++ [e]) key = if e.key = key then some e else latest? writes key := by
  rw [latest?, List.filter_append, latest?]
  by_cases h : e.key = key
  · simp [h]
  · simp [h]

theorem latest?_eq_some {writes : List Write} {key : String} {e : Write}
    (h : latest? writes key = some e) : e ∈ writes ∧ e.key = key := by
  have hmem := List.mem_of_getLast? h
  rw [List.mem_filter] at hmem
  exact ⟨hmem.1, by simpa using hmem.2⟩

theorem exists_latest? {writes : List Write} {e : Write} (h : e ∈ writes) :
    ∃ last, latest? writes e.key = some last := by
  apply Option.isSome_iff_exists.mp
  rw [latest?, List.getLast?_isSome]
  exact List.ne_nil_of_mem (List.mem_filter.mpr ⟨h, by simp⟩)

namespace Stores

def Apart (S : Stores) (setup : Setup) : Prop :=
  ∀ store, S = shared store → setup.source.bucket ≠ setup.target.bucket

variable {S : Stores} {setup : Setup}

theorem Apart.set (h : S.Apart setup) (side : Side) (store : Store) :
    (S.set side store).Apart setup := by
  intro store' heq
  cases S with
  | shared s => exact h s rfl
  | separate s t => cases side <;> cases heq

end Stores

/-- The objects of both sides: those of `S₀`, and what tasks have written since. -/
structure Objects (S₀ : Stores) (setup : Setup) (written : Nat → Option (String × StoredObject))
    (writes : List Write) (S : Stores) : Prop where
  apart : S.Apart setup
  source : ∀ key, (S.get .source).object? setup.source.bucket key =
    (S₀.get .source).object? setup.source.bucket key
  target : ∀ key, (S.get .target).object? setup.target.bucket key =
    ((latest? writes key).map Write.object).or
      ((S₀.get .target).object? setup.target.bucket key)
  elsewhere : ∀ bucket, bucket ≠ setup.target.bucket → ∀ key,
    (S.get .target).object? bucket key = (S₀.get .target).object? bucket key
  mem_writes : ∀ t key object, ⟨t, key, object⟩ ∈ writes ↔ written t = some (key, object)
  nodup : (writes.map Write.task).Nodup

/-- The open uploads of the target: those of `S₀`, and what tasks hold. -/
structure Uploads (S₀ : Stores) (held : Nat → Option (String × UploadSession)) (S : Stores) :
    Prop where
  open_held : ∀ t id session, held t = some (id, session) →
    (S.get .target).uploads[id]? = some session ∧ (S₀.get .target).uploads[id]? = none
  rest : ∀ id, (∀ t session, held t ≠ some (id, session)) →
    (S.get .target).uploads[id]? = (S₀.get .target).uploads[id]?
  alone : ∀ t u id session session', held t = some (id, session) → held u = some (id, session') →
    t = u
  fresh : (S.get .target).FreshIds

section Objects

variable {S₀ S : Stores} {setup : Setup} {written : Nat → Option (String × StoredObject)}
  {writes : List Write} {store : Store}

theorem objects_start (hapart : S₀.Apart setup) : Objects S₀ setup (fun _ => none) [] S₀ where
  apart := hapart
  source := fun _ => rfl
  target := fun _ => rfl
  elsewhere := fun _ _ _ => rfl
  mem_writes := by simp
  nodup := List.nodup_nil

theorem Objects.source_set (h : Objects S₀ setup written writes S)
    (hstore : ∀ bucket, bucket ≠ setup.target.bucket → ∀ key,
      store.object? bucket key = (S.get .target).object? bucket key) (key : String) :
    ((S.set .target store).get .source).object? setup.source.bucket key =
      (S₀.get .source).object? setup.source.bucket key := by
  rw [← h.source]
  cases hS : S with
  | shared s =>
    subst hS
    exact hstore _ (h.apart s rfl) key
  | separate s t => rfl

theorem Objects.still (h : Objects S₀ setup written writes S) {side : Side}
    (hstore : store.object? = (S.get side).object?) :
    Objects S₀ setup written writes (S.set side store) := by
  have hget : ∀ other, ((S.set side store).get other).object? = (S.get other).object? := by
    intro other
    rcases S.get_set_or side other store with ⟨hset, hget⟩ | hset
    · rw [hset, hstore, hget]
    · rw [hset]
  constructor
  · exact h.apart.set side store
  · rw [hget]
    exact h.source
  · rw [hget]
    exact h.target
  · rw [hget]
    exact h.elsewhere
  · exact h.mem_writes
  · exact h.nodup

theorem Objects.write (h : Objects S₀ setup written writes S) {t : Nat} (hnone : written t = none)
    {key : String} {object : StoredObject}
    (hstore : ∀ b k, store.object? b k =
      if setup.target.bucket = b ∧ key = k then some object else (S.get .target).object? b k) :
    Objects S₀ setup (Function.update written t (some (key, object)))
      (writes ++ [⟨t, key, object⟩]) (S.set .target store) := by
  have hother : ∀ bucket, bucket ≠ setup.target.bucket → ∀ k,
      store.object? bucket k = (S.get .target).object? bucket k := by
    intro bucket hne k
    rw [hstore, if_neg (fun heq => hne heq.1.symm)]
  constructor
  · exact h.apart.set _ _
  · exact h.source_set hother
  · intro k
    rw [Stores.get_set, hstore, latest?_snoc]
    by_cases hk : key = k
    · simp [hk]
    · simp only [hk, and_false, if_false]
      exact h.target k
  · intro bucket hne k
    rw [Stores.get_set, hother bucket hne]
    exact h.elsewhere bucket hne k
  · intro u k o
    rw [List.mem_append, List.mem_singleton, h.mem_writes]
    by_cases hu : u = t
    · subst hu
      rw [Function.update_self, hnone]
      simp [eq_comm]
    · rw [Function.update_of_ne hu]
      simp [hu]
  · rw [List.map_append, List.nodup_append]
    refine ⟨h.nodup, List.nodup_singleton t, ?_⟩
    intro u hu v hv heq
    obtain ⟨e, he, rfl⟩ := List.mem_map.mp hu
    have hv : v = t := List.mem_singleton.mp hv
    have hsome := (h.mem_writes e.task e.key e.object).mp he
    rw [heq, hv, hnone] at hsome
    cases hsome

end Objects

section Uploads

variable {S₀ S : Stores} {held : Nat → Option (String × UploadSession)} {store : Store}

theorem uploads_start (hfresh : (S₀.get .target).FreshIds) : Uploads S₀ (fun _ => none) S₀ where
  open_held := fun _ _ _ hnone => by cases hnone
  rest := fun _ _ => rfl
  alone := fun _ _ _ _ _ hnone => by cases hnone
  fresh := hfresh

theorem Uploads.still (h : Uploads S₀ held S) {side : Side}
    (huploads : store.uploads = (S.get side).uploads) (hid : (S.get side).nextId ≤ store.nextId) :
    Uploads S₀ held (S.set side store) := by
  have hget : ((S.set side store).get .target).uploads = (S.get .target).uploads ∧
      (S.get .target).nextId ≤ ((S.set side store).get .target).nextId := by
    rcases S.get_set_or side .target store with ⟨hset, hget⟩ | hset
    · rw [hset, hget]
      exact ⟨huploads, hid⟩
    · rw [hset]
      exact ⟨rfl, Nat.le_refl _⟩
  constructor
  · rw [hget.1]
    exact h.open_held
  · rw [hget.1]
    exact h.rest
  · exact h.alone
  · exact h.fresh.of_subset hget.2 fun id hmem => hget.1 ▸ hmem

theorem update_held {t u : Nat} {x : Option (String × UploadSession)} {id : String}
    {session : UploadSession} (h : Function.update held t x u = some (id, session)) :
    u = t ∧ x = some (id, session) ∨ u ≠ t ∧ held u = some (id, session) := by
  by_cases hu : u = t
  · subst hu
    rw [Function.update_self] at h
    exact .inl ⟨rfl, h⟩
  · rw [Function.update_of_ne hu] at h
    exact .inr ⟨hu, h⟩

theorem Uploads.touch (h : Uploads S₀ held S) {t : Nat} {id : String} (own : Option UploadSession)
    (hown : ∀ session, held t = some session → session.1 = id)
    (hfree : ∀ u session, u ≠ t → held u ≠ some (id, session))
    (hnew : (S₀.get .target).uploads[id]? = none)
    (huploads : ∀ other, store.uploads[other]? =
      if other = id then own else (S.get .target).uploads[other]?)
    (hfresh : store.FreshIds) :
    Uploads S₀ (Function.update held t (own.map fun session => (id, session)))
      (S.set .target store) := by
  constructor
  · intro u other session hu
    rw [Stores.get_set, huploads]
    rcases update_held hu with ⟨rfl, hsome⟩ | ⟨hne, hold⟩
    · obtain ⟨session', rfl, heq⟩ := Option.map_eq_some_iff.mp hsome
      cases heq
      exact ⟨if_pos rfl, hnew⟩
    · rw [if_neg]
      · exact h.open_held u other session hold
      · rintro rfl
        exact hfree u session hne hold
  · intro other hnot
    rw [Stores.get_set, huploads]
    by_cases heq : other = id
    · subst heq
      rw [if_pos rfl, hnew]
      cases own with
      | none => rfl
      | some session => exact absurd (Function.update_self ..) (hnot t session)
    · rw [if_neg heq]
      apply h.rest
      intro u session hu
      by_cases hut : u = t
      · subst hut
        exact heq (hown _ hu)
      · exact hnot u session ((Function.update_of_ne hut ..).trans hu)
  · intro u v other session session' hu hv
    rcases update_held hu with ⟨rfl, hsome⟩ | ⟨hut, hold⟩
    · obtain ⟨_, -, heq⟩ := Option.map_eq_some_iff.mp hsome
      cases heq
      rcases update_held hv with ⟨rfl, -⟩ | ⟨hvt, hother⟩
      · rfl
      · exact absurd hother (hfree v session' hvt)
    · rcases update_held hv with ⟨rfl, hsome⟩ | ⟨hvt, hother⟩
      · obtain ⟨_, -, heq⟩ := Option.map_eq_some_iff.mp hsome
        cases heq
        exact absurd hold (hfree u session hut)
      · exact h.alone u v other session session' hold hother
  · rw [Stores.get_set]
    exact hfresh

theorem Uploads.not_held (h : Uploads S₀ held S) {id : String}
    (hid : (S.get .target).uploads[id]? = none) (u : Nat) (session : UploadSession) :
    held u ≠ some (id, session) := by
  intro hu
  have hopen := (h.open_held u id session hu).1
  rw [hid] at hopen
  cases hopen

theorem Uploads.create (h : Uploads S₀ held S) {t : Nat} (hnone : held t = none)
    (bucket key : String) :
    Uploads S₀ (Function.update held t (some ((S.get .target).uploadId, ⟨bucket, key, {}⟩)))
      (S.set .target ((S.get .target).createUpload bucket key)) := by
  have hid : (S.get .target).uploads[(S.get .target).uploadId]? = none :=
    Std.TreeMap.getElem?_eq_none h.fresh.not_mem
  have hnot := h.not_held hid
  refine h.touch (some ⟨bucket, key, {}⟩) ?_ (fun u session _ => hnot u session) ?_ ?_
    (h.fresh.createUpload bucket key)
  · intro session hsome
    rw [hnone] at hsome
    cases hsome
  · rw [← h.rest _ hnot, hid]
  · intro other
    rw [Store.createUpload, Std.TreeMap.getElem?_insert]
    by_cases heq : other = (S.get .target).uploadId
    · subst heq
      simp
    · rw [if_neg heq, if_neg (by simpa using Ne.symm heq)]

theorem id_eq_of_held {t : Nat} {id : String} {session : UploadSession}
    (hheld : held t = some (id, session)) (own : String × UploadSession) (hown : held t = some own) :
    own.1 = id := by
  rw [hheld] at hown
  cases hown
  rfl

section Held

variable {t : Nat} {id : String} {session : UploadSession} (h : Uploads S₀ held S)
  (hheld : held t = some (id, session))
include h hheld

theorem Uploads.free (u : Nat) (session' : UploadSession) (hne : u ≠ t) :
    held u ≠ some (id, session') :=
  fun hu => hne (h.alone u t id session' session hu hheld)

theorem Uploads.mem : id ∈ (S.get .target).uploads := by
  rw [Std.TreeMap.mem_iff_isSome_getElem?, (h.open_held t id session hheld).1]
  rfl

theorem Uploads.insert {session' : UploadSession}
    (huploads : store.uploads = (S.get .target).uploads.insert id session')
    (hid : (S.get .target).nextId ≤ store.nextId) :
    Uploads S₀ (Function.update held t (some (id, session'))) (S.set .target store) := by
  refine h.touch (some session') (id_eq_of_held hheld) (h.free hheld)
    (h.open_held t id session hheld).2 ?_ (h.fresh.of_subset hid ?_)
  · intro other
    rw [huploads, Std.TreeMap.getElem?_insert]
    by_cases heq : other = id
    · subst heq
      simp
    · rw [if_neg heq, if_neg (by simpa using Ne.symm heq)]
  · intro other hmem
    rw [huploads, Std.TreeMap.mem_insert, Std.compare_eq_iff_eq] at hmem
    rcases hmem with rfl | hold
    · exact h.mem hheld
    · exact hold

theorem Uploads.erase (huploads : store.uploads = (S.get .target).uploads.erase id)
    (hid : (S.get .target).nextId ≤ store.nextId) :
    Uploads S₀ (Function.update held t none) (S.set .target store) := by
  refine h.touch none (id_eq_of_held hheld) (h.free hheld)
    (h.open_held t id session hheld).2 ?_ (h.fresh.of_subset hid ?_)
  · intro other
    rw [huploads, Std.TreeMap.getElem?_erase]
    by_cases heq : other = id
    · subst heq
      simp
    · rw [if_neg heq, if_neg (by simpa using Ne.symm heq)]
  · intro other hmem
    rw [huploads] at hmem
    exact Std.TreeMap.mem_of_mem_erase hmem

end Held

end Uploads

end BucketMigration

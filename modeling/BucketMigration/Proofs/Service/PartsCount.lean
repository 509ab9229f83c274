import BucketMigration.Proofs.Store.Etags
import BucketMigration.Proofs.Store.Usage
import BucketMigration.Proofs.Text.Trimming
import BucketMigration.Service.Client

/-!
# Part counts in etags

An etag tells a number of parts when it ends, within any double quotes, in a dash and a numeral that is
neither zero nor too large for 32 bits. A store writes the number of parts into the etag of an object
that an upload was completed to, behind hexadecimal digits, and into no other one. So whatever was done
to a store, the etag of an object tells just the number of parts that the store reports, unless this was
set to another one.
-/

namespace BucketMigration

namespace Service

open Text (Bare IsNumeral)

/-- What is left of an etag without all the double quotes at both ends. -/
def Unquoted (etag : String) (rest : List Char) : Prop :=
  Bare (· == '"') rest ∧ ∃ before after : List Char, (∀ c ∈ before, c = '"') ∧
    (∀ c ∈ after, c = '"') ∧ etag.toList = before ++ rest ++ after

/-- An etag that ends in a dash and a number of parts. -/
def TellsParts (etag : String) (n : Nat) : Prop :=
  ∃ front numeral, Unquoted etag (front ++ '-' :: numeral) ∧ IsNumeral numeral n ∧
    1 ≤ n ∧ n < 2 ^ 32

variable {etag : String} {rest numeral : List Char} {n : Nat}

theorem trimBoth_eq_iff_unquoted :
    Text.trimBoth (· == '"') etag.toList = rest ↔ Unquoted etag rest := by
  rw [Text.trimBoth_eq_iff_bare]
  simp only [beq_iff_eq, Unquoted]

theorem dash_not_mem_of_isNumeral (h : IsNumeral numeral n) : '-' ∉ numeral := by
  intro hmem
  rcases h.eq_plus_or_isDigit hmem with heq | hdigit
  · cases heq
  · cases hdigit

theorem partsCountOfEtag?_eq_some_iff : partsCountOfEtag? etag = some n ↔ TellsParts etag n := by
  unfold partsCountOfEtag?
  constructor
  · intro h
    split at h
    · cases h
    · rename_i front numeral hsplit
      obtain ⟨hread, hpos⟩ := Option.filter_eq_some_iff.mp h
      obtain ⟨hnumeral, hlt⟩ := Text.unsigned?_eq_some_iff.mp hread
      refine ⟨front, numeral, ?_, hnumeral, of_decide_eq_true hpos, hlt⟩
      exact trimBoth_eq_iff_unquoted.mp (Text.splitLast_eq_some_iff.mp hsplit).1
  · rintro ⟨front, numeral, hrest, hnumeral, hpos, hlt⟩
    rw [trimBoth_eq_iff_unquoted.mpr hrest,
      Text.splitLast_append_cons (dash_not_mem_of_isNumeral hnumeral)]
    exact Option.filter_eq_some_iff.mpr
      ⟨Text.unsigned?_eq_some_iff.mpr ⟨hnumeral, hlt⟩, decide_eq_true hpos⟩

theorem partsCountOfEtag?_eq_none_iff : partsCountOfEtag? etag = none ↔ ∀ n, ¬TellsParts etag n := by
  simp only [← partsCountOfEtag?_eq_some_iff, Option.eq_none_iff_forall_ne_some, ne_eq]

theorem unquoted_quoted {text : String} (h : '"' ∉ text.toList) :
    Unquoted ("\"" ++ text ++ "\"") text.toList := by
  refine ⟨Text.bare_of_forall fun c hc => beq_eq_false_iff_ne.mpr fun heq => h (heq ▸ hc),
    ['"'], ['"'], by simp, by simp, ?_⟩
  rw [String.toList_append, String.toList_append]
  rfl

end Service

namespace Store

open Service (partsCountOfEtag? TellsParts Unquoted)

variable {s : Store} {length count : Nat}

theorem not_mem_etagDigits {c : Char} (h : Text.hexDigit? c = none) :
    c ∉ (s.etagDigits length).toList := by
  intro hmem
  have hdigit := isSome_hexDigit?_of_mem_etagDigits hmem
  rw [h] at hdigit
  cases hdigit

theorem toList_dash_toString (count : Nat) :
    (s!"-{count}").toList = '-' :: Nat.toDigits 10 count := by
  change ("-" ++ toString count).toList = _
  simp [String.toList_append]

theorem partsCountOfEtag?_etag (s : Store) (length : Nat) :
    partsCountOfEtag? (s.etag length) = none := by
  have hrest : Unquoted (s.etag length) (s.etagDigits length).toList :=
    Service.unquoted_quoted (not_mem_etagDigits rfl)
  rw [partsCountOfEtag?, Service.trimBoth_eq_iff_unquoted.mpr hrest,
    Text.splitLast_of_not_mem (not_mem_etagDigits rfl)]

theorem partsCountOfEtag?_completed (s : Store) (length : Nat) (hpos : 0 < count)
    (hlt : count < 2 ^ 32) :
    partsCountOfEtag? ("\"" ++ s.etagDigits length ++ s!"-{count}\"") = some count := by
  have hdigits : ∀ c ∈ Nat.toDigits 10 count, c.isDigit = true := fun c hc =>
    Nat.isDigit_of_mem_toDigits (by decide) (by decide) hc
  have hrest := @Service.unquoted_quoted (s.etagDigits length ++ s!"-{count}") (by
    rw [String.toList_append, toList_dash_toString]
    intro hmem
    rcases List.mem_append.mp hmem with hmem | hmem
    · exact not_mem_etagDigits rfl hmem
    · rcases List.mem_cons.mp hmem with heq | hmem
      · cases heq
      · cases hdigits _ hmem)
  rw [String.toList_append, toList_dash_toString] at hrest
  have hetag : "\"" ++ s.etagDigits length ++ s!"-{count}\"" =
      "\"" ++ (s.etagDigits length ++ s!"-{count}") ++ "\"" := by
    change "\"" ++ s.etagDigits length ++ ("-" ++ toString count ++ "\"") =
      "\"" ++ (s.etagDigits length ++ ("-" ++ toString count)) ++ "\""
    simp only [String.append_assoc]
  have hnumeral := @Text.IsNumeral.mk [] _ (.inl rfl) (@Nat.toDigits_ne_nil count 10) hdigits
  rw [Nat.ofDigitChars_toDigits (by decide) (by decide)] at hnumeral
  rw [hetag, Service.partsCountOfEtag?_eq_some_iff]
  exact ⟨_, _, hrest, hnumeral, hpos, hlt⟩

end Store

inductive ObjectWrite
  | onePiece
  | inParts (count : Nat)
  /-- The number of parts was set from outside. -/
  | overridden (count : Nat)
deriving DecidableEq

namespace ObjectWrite

def count? : ObjectWrite → Option Nat
  | onePiece => none
  | inParts count | overridden count => some count

def IsOverride (w : ObjectWrite) : Prop :=
  ∃ count, w = overridden count

/-- An object that a store may keep after such a write. -/
inductive Fits : ObjectWrite → StoredObject → Prop
  | onePiece (s : Store) (data : ByteArray) (time : Int) :
      Fits .onePiece ⟨data, time, s.etag data.size, none⟩
  | inParts (s : Store) (now : Int) {parts : List CompletedPart} (hne : parts ≠ [])
      (data : ByteArray) : Fits (.inParts parts.length) (s.completedObject now parts data)
  | overridden (object : StoredObject) (count : Nat) :
      Fits (.overridden count) { object with partsCount := some count }

theorem Fits.tells {w : ObjectWrite} {object : StoredObject} (h : Fits w object)
    (hlt : ∀ count, w = .inParts count → count < 2 ^ 32) :
    object.partsCount = w.count? ∧
      (¬w.IsOverride → Service.partsCountOfEtag? object.etag = object.partsCount) := by
  cases h with
  | onePiece s data => exact ⟨rfl, fun _ => s.partsCountOfEtag?_etag data.size⟩
  | @inParts s now parts hne data =>
    have hcount : (s.completedObject now parts data).partsCount = some parts.length :=
      congrArg some (Nat.mod_eq_of_lt (hlt _ rfl))
    refine ⟨hcount, fun _ => ?_⟩
    rw [hcount]
    exact s.partsCountOfEtag?_completed data.size (List.length_pos_iff.mpr hne) (hlt _ rfl)
  | overridden object count => exact ⟨rfl, fun hnot => absurd ⟨count, rfl⟩ hnot⟩

end ObjectWrite

namespace Usage

open Service (partsCountOfEtag? TellsParts)

/-- The bucket and the key that an action writes to, and how. -/
def Event.written? (e : Event) : Option ((String × String) × ObjectWrite) :=
  match e.action with
  | .insert bucket key _ _ => some ((bucket, key), .onePiece)
  | .setPartsCount bucket key count => some ((bucket, key), .overridden count)
  | .finish _ (.put bucket key _) => some ((bucket, key), .onePiece)
  | .finish now (.completeUpload bucket key id parts) =>
      if (StoreDeed.mk e.before.store now (.completeUpload bucket key id parts)).reply.isOk then
        some ((bucket, key), .inParts parts.length)
      else none
  | _ => none

/-- The latest of some events, of which the latest comes first, that writes to a key. -/
def lastWrite? (events : List Event) (bucket key : String) : Option ObjectWrite :=
  events.findSome? fun e => e.written?.bind fun w =>
    if w.1 = (bucket, key) then some w.2 else none

/-- Nothing is written, or one object that fits the write and no other one. -/
inductive Wrote (u v : Usage) : Option ((String × String) × ObjectWrite) → Prop
  | nothing (hobjects : v.store.object? = u.store.object?) : Wrote u v none
  | object {bucket key : String} {w : ObjectWrite} (written : Option StoredObject)
      (hfits : ∀ object, written = some object → w.Fits object)
      (hobjects : ∀ b k, v.store.object? b k =
        if bucket = b ∧ key = k then written else u.store.object? b k) :
      Wrote u v (some ((bucket, key), w))

variable {events : List Event} {u v : Usage} {action : UsageAction} {bucket key : String}

theorem wrote_finish {now : Int} {r : Request} (h : u.act (.finish now r) = some v) :
    Wrote u v (Event.written? ⟨u, .finish now r⟩) := by
  have hstore := store_of_finish h
  cases r with
  | list | head => exact .nothing (by rw [hstore]; exact Store.object?_congr rfl)
  | get => exact .nothing (by rw [hstore]; exact Store.object?_congr rfl)
  | put bucket key data =>
    refine .object (some ⟨data, now, u.store.etag data.size, none⟩) ?_ fun b k => ?_
    · rintro _ ⟨⟩
      exact .onePiece ..
    · rw [hstore]
      exact (congrFun (congrFun (Store.object?_congr rfl) b) k).trans
        (u.store.object?_insert bucket key data now b k)
  | createUpload => exact .nothing (by rw [hstore]; exact Store.object?_congr rfl)
  | uploadPart bucket key id part data =>
    refine .nothing ?_
    rw [hstore, ← u.store.object?_uploadPart bucket key id part data]
    exact Store.object?_congr rfl
  | completeUpload bucket key id parts =>
    rcases u.store.finish_completeUpload_cases now bucket key id parts with
      ⟨e, hfinish⟩ | ⟨session, data, hsession, hne, hascending, hdata⟩
    · have hnone : Event.written? ⟨u, .finish now (.completeUpload bucket key id parts)⟩ = none :=
        if_neg (by rw [StoreDeed.reply, hfinish]; exact Bool.false_ne_true)
      rw [hnone]
      exact .nothing (by rw [hstore, StoreDeed.after, hfinish])
    · have hfinish := Store.finish_completeUpload_known hsession hne hascending hdata now
      have hsome : Event.written? ⟨u, .finish now (.completeUpload bucket key id parts)⟩ =
          some ((bucket, key), .inParts parts.length) :=
        if_pos (by rw [StoreDeed.reply, hfinish]; rfl)
      rw [hsome]
      refine .object (some (u.store.completedObject now parts data)) ?_ fun b k => ?_
      · rintro _ ⟨⟩
        exact .inParts u.store now hne data
      · rw [hstore, StoreDeed.after, hfinish]
        exact Store.object?_write _ bucket key _ b k
  | abortUpload bucket key id =>
    refine .nothing ?_
    rw [hstore, ← u.store.object?_abortUpload bucket key id]
    exact Store.object?_congr rfl

theorem wrote_of_act (h : u.act action = some v) : Wrote u v (Event.written? ⟨u, action⟩) := by
  cases action with
  | finish now r => exact wrote_finish h
  | enter r =>
    have hobjects := u.store.object?_enter r
    simp only [act] at h
    split at h <;> rename_i store henter <;> cases h <;> rw [henter] at hobjects
    · exact .nothing hobjects
    · exact .nothing hobjects
  | giveUp r =>
    simp only [act] at h
    split at h
    · cases h
      exact .nothing rfl
    · cases h
  | insert bucket key data time =>
    cases h
    refine .object (some ⟨data, time, u.store.etag data.size, none⟩) ?_
      (u.store.object?_insert bucket key data time)
    rintro _ ⟨⟩
    exact .onePiece ..
  | setPartsCount bucket key count =>
    cases h
    refine .object ((u.store.object? bucket key).map fun object =>
      { object with partsCount := some count }) ?_ fun b k => ?_
    · intro object hobject
      obtain ⟨object, -, rfl⟩ := Option.map_eq_some_iff.mp hobject
      exact .overridden object count
    · simp only [Store.setPartsCount]
      split
      · rename_i hnone
        split
        · rename_i hsame
          rw [← hsame.1, ← hsame.2, hnone]
          rfl
        · rfl
      · rename_i object hobject
        rw [Store.object?_write, hobject]
        rfl
  | configure setting =>
    cases h
    exact .nothing (by cases setting <;> exact Store.object?_congr rfl)

theorem Path.exists_lastWrite (h : Path events u) {object : StoredObject}
    (hobject : u.store.object? bucket key = some object) :
    ∃ w, lastWrite? events bucket key = some w ∧ w.Fits object := by
  induction h with
  | new => cases hobject
  | @step events u v action _ hact ih =>
    have hwrote := wrote_of_act hact
    generalize hwritten : Event.written? ⟨u, action⟩ = written at hwrote
    rw [lastWrite?, List.findSome?_cons, ← lastWrite?, hwritten]
    cases hwrote with
    | nothing hobjects =>
      rw [hobjects] at hobject
      exact ih hobject
    | @object b k w _ hfits hobjects =>
      rw [hobjects] at hobject
      by_cases hsame : b = bucket ∧ k = key
      · rw [if_pos hsame] at hobject
        obtain ⟨rfl, rfl⟩ := hsame
        exact ⟨w, by simp, hfits _ hobject⟩
      · rw [if_neg hsame] at hobject
        simpa [hsame] using ih hobject

/-- An etag tells a number of parts exactly if it ends, without the double quotes around it, in a dash
and a numeral of this number. Every object of a store has an etag that tells the number of parts that is
reported: those of the upload that it was completed from, and none if it was written in one piece. Only
a number that was set from outside may be another one. -/
theorem etag_tells_partsCount :
    (∀ etag n, partsCountOfEtag? etag = some n ↔ TellsParts etag n) ∧
    (∀ etag, partsCountOfEtag? etag = none ↔ ∀ n, ¬TellsParts etag n) ∧
    ∀ {events u}, Path events u → ∀ bucket key metadata,
      u.store.head bucket key = some metadata →
        ∃ etag w, metadata.etag = some etag ∧ lastWrite? events bucket key = some w ∧
          ((∀ count, w = .inParts count → count < 2 ^ 32) → metadata.partsCount = w.count? ∧
            (¬w.IsOverride → partsCountOfEtag? etag = metadata.partsCount)) := by
  refine ⟨fun _ _ => Service.partsCountOfEtag?_eq_some_iff,
    fun _ => Service.partsCountOfEtag?_eq_none_iff, ?_⟩
  intro events u hpath bucket key metadata hhead
  obtain ⟨object, hobject, rfl⟩ := Option.map_eq_some_iff.mp hhead
  obtain ⟨w, hw, hfits⟩ := hpath.exists_lastWrite hobject
  exact ⟨object.etag, w, rfl, hw, hfits.tells⟩

/-- One object is put in, and an upload of two parts is completed to another one. -/
def pieceAndParts : List UsageAction :=
  .insert "bucket" "piece" "old-2".toUTF8 0 ::
    [.createUpload "bucket" "parts", .uploadPart "bucket" "parts" "upload-1" 1 "new".toUTF8,
      .uploadPart "bucket" "parts" "upload-1" 2 "er".toUTF8,
      .completeUpload "bucket" "parts" "upload-1"
        [⟨1, "\"300000002\""⟩, ⟨2, "\"200000003\""⟩]].flatMap
      fun r => [.enter r, .finish 0 r]

theorem etag_tells_partsCount_pieceAndParts :
    ∃ events u, Path events u ∧
      u.store.head "bucket" "piece" = some ⟨5, some 0, some "\"500000000\"", none⟩ ∧
      u.store.head "bucket" "parts" = some ⟨5, some 0, some "\"500000004-2\"", some 2⟩ ∧
      lastWrite? events "bucket" "piece" = some .onePiece ∧
      lastWrite? events "bucket" "parts" = some (.inParts 2) ∧
      partsCountOfEtag? "\"500000000\"" = none ∧ partsCountOfEtag? "\"500000004-2\"" = some 2 := by
  have hrun : (pieceAndParts.foldlM follow? ([], {})).any (fun path =>
      path.2.store.head "bucket" "piece" = some ⟨5, some 0, some "\"500000000\"", none⟩ &&
      path.2.store.head "bucket" "parts" = some ⟨5, some 0, some "\"500000004-2\"", some 2⟩ &&
      lastWrite? path.1 "bucket" "piece" = some .onePiece &&
      lastWrite? path.1 "bucket" "parts" = some (.inParts 2)) = true := by
    decide +kernel
  simp only [Option.any_eq_true, Bool.and_eq_true, decide_eq_true_eq] at hrun
  obtain ⟨⟨events, u⟩, hfollow, ⟨⟨hpiece, hparts⟩, hone⟩, htwo⟩ := hrun
  have hpath := path_of_foldlM .new hfollow
  obtain ⟨-, -, htells⟩ := etag_tells_partsCount
  obtain ⟨_, _, ⟨⟩, hw, hpieceTells⟩ := htells hpath _ _ _ hpiece
  obtain rfl := Option.some.inj (hone.symm.trans hw)
  obtain ⟨_, _, ⟨⟩, hw, hpartsTells⟩ := htells hpath _ _ _ hparts
  obtain rfl := Option.some.inj (htwo.symm.trans hw)
  refine ⟨events, u, hpath, hpiece, hparts, hone, htwo, (hpieceTells nofun).2 nofun, ?_⟩
  refine (hpartsTells ?_).2 nofun
  rintro _ ⟨⟩
  decide

end Usage

end BucketMigration

import Aavishield.Dlp.Classifier

/-!
# Verdicts that are kept

When an entry of the classifiers' cache that says that nothing is sensitive stands for something
that a model has said.
-/

namespace Aavishield.Classifier

open TransitionSystem

variable (env : Primitives)

def SaysClear (kind : Kind) (reply : List Char) : Prop :=
  ∃ entry, kind.read env reply = .usable entry ∧ entry.isClear = true

/-- Behind a kept verdict of nothing sensitive there is a reply, for the same content, that says
so. -/
def Backed (store : Store) : Prop :=
  ∀ key stored, store.cache key = some stored → stored.entry.isClear = true →
    ∃ reply, .replied stored.owner reply ∈ store.history ∧
      SaysClear env stored.owner.kind reply

def Distinct (history : List Deed) : Prop :=
  ∀ first second, .asked first ∈ history → .asked second ∈ history →
    env.sha256 first.content = env.sha256 second.content →
      first.content = second.content

/-- Nobody gets an entry that was stored for another content, kind or model. -/
def Separate (history : List Deed) : Prop :=
  ∀ asked owner, .returned asked owner ∈ history → owner = asked

/-- What is kept as clear was said to be clear, and is given for the same content only. -/
structure Sound (store : Store) : Prop where
  backed : Backed env store
  separate : Distinct env store.history → Separate store.history

/-- What could not be parsed is not kept, unless a model has said before that there is nothing
sensitive in the content. -/
def CarefulCall (store : Store) (works : Bool) : Call → Prop
  | .storing task reply _ =>
    works = true → task.kind.read env reply = .unusable →
      ∃ earlier, .replied task.subject earlier ∈ store.history ∧
        SaysClear env task.kind earlier
  | _ => True

/-- Every step of a call is careful with the cache. -/
def Careful (world : World) : Action → Prop
  | .advance number works _ =>
    ∀ call, world.calls number = some call → CarefulCall env world.store works call
  | _ => True

def Call.Kept (history : List Deed) : Call → Prop
  | .reading task | .budgeting task | .asking task => .asked task.subject ∈ history
  | .storing task reply entry =>
    .asked task.subject ∈ history ∧ .replied task.subject reply ∈ history ∧
      (task.kind.read env reply = .usable entry ∨
        task.kind.read env reply = .unusable ∧ task.kind.none = some entry)
  | .finished _ | .crashed => True

structure Kept (world : World) : Prop where
  entries : ∀ key stored, world.store.cache key = some stored →
    stored.owner.key env = key ∧ .asked stored.owner ∈ world.store.history
  returned : ∀ asked owner, .returned asked owner ∈ world.store.history →
    owner.key env = asked.key env ∧ .asked asked ∈ world.store.history ∧
      .asked owner ∈ world.store.history
  calls : ∀ number call, world.calls number = some call →
    call.Kept env world.store.history

variable {env : Primitives} {world next final : World} {store after : Store}
variable {call later : Call} {works : Bool} {trace : List Action}

theorem hex_cons (byte : UInt8) (rest : Dlp.Bytes) :
    hex (byte :: rest) =
      Nat.digitChar (byte.toNat / 16) :: Nat.digitChar (byte.toNat % 16) :: hex rest := rfl

theorem length_hex (bytes : Dlp.Bytes) : (hex bytes).length = 2 * bytes.length := by
  induction bytes with
  | nil => rfl
  | cons byte rest ih =>
    simp only [hex_cons, List.length_cons, ih]
    omega

theorem hex_injective : Function.Injective hex := by
  intro first second same
  induction first generalizing second with
  | nil =>
    cases second with
    | nil => rfl
    | cons byte rest => simp [hex] at same
  | cons byte rest ih =>
    cases second with
    | nil => simp [hex] at same
    | cons other others =>
      simp only [hex_cons, List.cons.injEq] at same
      rcases same with ⟨high, low, rest⟩
      have values : ∀ first < 16, ∀ second < 16,
          Nat.digitChar first = Nat.digitChar second → first = second := by
        decide
      have bound := byte.toNat_lt
      have otherBound := other.toNat_lt
      have highs := values _ (by omega) _ (by omega) high
      have lows := values _ (by omega) _ (by omega) low
      have bytes : byte = other := UInt8.toNat_inj.mp (by omega)
      rw [bytes, ih rest]

theorem kind_eq_of_tag {first second : Kind} (same : first.tag = second.tag) : first = second := by
  cases first <;> cases second <;> first | rfl | simp [Kind.tag] at same

theorem length_tag (kind : Kind) : kind.tag.toList.length = 3 := by
  cases kind <;> rfl

theorem subject_eq_of_key {first second : Subject}
    (same : first.key env = second.key env)
    (distinct : env.sha256 first.content = env.sha256 second.content →
      first.content = second.content) : first = second := by
  unfold Subject.key at same
  simp only [List.append_assoc, List.append_cancel_left_eq] at same
  have tagLengths : first.kind.tag.toList.length = second.kind.tag.toList.length := by
    simp only [length_tag]
  obtain ⟨tags, same⟩ := List.append_inj same tagLengths
  have kinds : first.kind = second.kind := kind_eq_of_tag (String.toList_inj.mp tags)
  simp only [List.append_cancel_left_eq] at same
  have hashLengths : (hex (env.sha256 first.content).toList).length =
      (hex (env.sha256 second.content).toList).length := by
    simp only [length_hex, Vector.length_toList]
  obtain ⟨hashes, same⟩ := List.append_inj same hashLengths
  have contents : first.content = second.content :=
    distinct (Vector.toList_inj.mp (hex_injective hashes))
  simp only [kinds, List.append_cancel_left_eq] at same
  have models : first.model = second.model := String.toList_inj.mp same
  obtain ⟨kind, content, model⟩ := first
  obtain ⟨otherKind, otherContent, otherModel⟩ := second
  simp only at kinds contents models
  rw [kinds, contents, models]

theorem Call.Kept.mono {before later : List Deed} (grows : ∀ deed ∈ before, deed ∈ later)
    (kept : call.Kept env before) : call.Kept env later := by
  cases call with
  | reading | budgeting | asking => exact grows _ kept
  | storing => exact ⟨grows _ kept.1, grows _ kept.2.1, kept.2.2⟩
  | finished | crashed => trivial

inductive Advance (env : Primitives) (store : Store) (works : Bool) :
    Call → Call → Store → Prop where
  | quiet {call later : Call} {after : Store} (cache : after.cache = store.cache)
      (history : after.history = store.history)
      (careful : CarefulCall env store works call)
      (kept : call.Kept env store.history → later.Kept env store.history) :
      Advance env store works call later after
  | returned (task : Task) (stored : Stored) (answer : Option Entry)
      (found : store.cache (task.subject.key env) = some stored) :
      Advance env store works (.reading task) (.finished answer)
        (store.record (.returned task.subject stored.owner))
  | replied (task : Task) (reply : List Char) (later : Call)
      (kept : (Call.asking task).Kept env store.history →
        later.Kept env (.replied task.subject reply :: store.history)) :
      Advance env store works (.asking task) later
        (store.record (.replied task.subject reply))
  | stored (task : Task) (reply : List Char) (entry : Entry) (succeeds : works = true) :
      Advance env store works (.storing task reply entry) (.finished (some entry))
        (store.put env task.subject entry)

theorem advance_cases (store : Store) (works : Bool) (responses : ℕ → ℕ → Response) (call : Call) :
    Advance env store works call (store.advance env works responses call).1
      (store.advance env works responses call).2 := by
  cases call with
  | finished | crashed => exact .quiet rfl rfl trivial id
  | reading task =>
    simp only [Store.advance]
    split
    · exact .quiet rfl rfl trivial id
    · next stored found =>
        split
        · exact .quiet rfl rfl trivial id
        · exact .returned task stored _ (Option.ite_none_right_eq_some.mp found).2
  | budgeting task =>
    simp only [Store.advance]
    split_ifs
    · exact .quiet rfl rfl trivial fun _ => trivial
    · exact .quiet rfl rfl trivial id
    · exact .quiet rfl rfl trivial id
  | asking task =>
    simp only [Store.advance]
    split
    · exact .quiet rfl rfl trivial fun _ => trivial
    · next reply _ =>
        split
        · exact .replied task reply _ fun _ => trivial
        · next entry read =>
            refine .replied task reply _ fun asked => ?_
            exact ⟨List.mem_cons_of_mem _ asked, List.mem_cons_self, .inl read⟩
        · next unusable =>
            split
            · exact .replied task reply _ fun _ => trivial
            · next entry substitute =>
                refine .replied task reply _ fun asked => ?_
                exact ⟨List.mem_cons_of_mem _ asked, List.mem_cons_self, .inr ⟨unusable, substitute⟩⟩
  | storing task reply entry =>
    simp only [Store.advance]
    split_ifs with succeeds
    · exact .stored task reply entry succeeds
    · exact .quiet rfl rfl (fun works => absurd works succeeds) fun _ => trivial

theorem grows_advance (moved : Advance env store works call later after) :
    ∀ deed ∈ store.history, deed ∈ after.history := by
  intro deed mem
  cases moved with
  | quiet _ history => exact history ▸ mem
  | returned | replied => exact List.mem_cons_of_mem _ mem
  | stored => exact mem

theorem kept_advance {calls : ℕ → Option Call} {number : ℕ}
    (kept : Kept env ⟨store, calls⟩) (found : calls number = some call)
    (moved : Advance env store works call later after) :
    Kept env ⟨after, Function.update calls number (some later)⟩ := by
  have grows : ∀ deed ∈ store.history, deed ∈ after.history := grows_advance moved
  have others : later.Kept env after.history → ∀ which other,
      Function.update calls number (some later) which = some other →
        other.Kept env after.history := by
    intro laterKept which other there
    rcases party_update there with ⟨-, rfl⟩ | ⟨-, before⟩
    · exact laterKept
    · exact (kept.calls which other before).mono grows
  cases moved with
  | quiet cache history careful keeps =>
    refine ⟨?_, ?_, others ?_⟩
    · simpa only [cache, history] using kept.entries
    · simpa only [history] using kept.returned
    · rw [history]
      exact keeps (kept.calls number call found)
  | returned task stored answer hit =>
    have asked : .asked task.subject ∈ store.history := kept.calls number _ found
    obtain ⟨sameKey, owned⟩ := kept.entries _ stored hit
    refine ⟨?_, ?_, others trivial⟩
    · intro key entry there
      exact ⟨(kept.entries key entry there).1, grows _ (kept.entries key entry there).2⟩
    · intro first owner mem
      rcases List.mem_cons.mp mem with same | before
      · obtain ⟨rfl, rfl⟩ := Deed.returned.inj same
        exact ⟨sameKey, grows _ asked, grows _ owned⟩
      · obtain ⟨sameKeys, first, second⟩ := kept.returned first owner before
        exact ⟨sameKeys, grows _ first, grows _ second⟩
  | replied task reply later keeps =>
    refine ⟨?_, ?_, others (keeps (kept.calls number _ found))⟩
    · intro key entry there
      exact ⟨(kept.entries key entry there).1, grows _ (kept.entries key entry there).2⟩
    · intro first owner mem
      simp only [Store.record, List.mem_cons, reduceCtorEq, false_or] at mem
      obtain ⟨sameKeys, first, second⟩ := kept.returned first owner mem
      exact ⟨sameKeys, grows _ first, grows _ second⟩
  | stored task reply entry succeeds =>
    have asked : .asked task.subject ∈ store.history := (kept.calls number _ found).1
    refine ⟨?_, kept.returned, others trivial⟩
    intro key stored there
    simp only [Store.put, Function.update_apply] at there
    split_ifs at there with same
    · obtain rfl := Option.some.inj there
      exact ⟨same.symm, asked⟩
    · exact kept.entries key stored there

theorem kept_step {action : Action} (kept : Kept env world)
    (stepped : world.step env action = some next) : Kept env next := by
  cases action with
  | begin number cfg orgID request =>
    simp only [World.step, Option.ite_none_right_eq_some] at stepped
    obtain ⟨-, stepped⟩ := stepped
    split at stepped
    · obtain rfl := Option.some.inj stepped
      refine ⟨kept.entries, kept.returned, ?_⟩
      intro which call there
      rcases party_update there with ⟨-, rfl⟩ | ⟨-, before⟩
      · trivial
      · exact kept.calls which call before
    · next task _ =>
        obtain rfl := Option.some.inj stepped
        have grows : ∀ deed ∈ world.store.history, deed ∈ .asked task.subject :: world.store.history :=
          fun _ mem => List.mem_cons_of_mem _ mem
        refine ⟨?_, ?_, ?_⟩
        · intro key stored there
          exact ⟨(kept.entries key stored there).1, grows _ (kept.entries key stored there).2⟩
        · intro asked owner mem
          simp only [Store.record, List.mem_cons, reduceCtorEq, false_or] at mem
          obtain ⟨sameKeys, first, second⟩ := kept.returned asked owner mem
          exact ⟨sameKeys, grows _ first, grows _ second⟩
        · intro which call there
          rcases party_update there with ⟨-, rfl⟩ | ⟨-, before⟩
          · exact List.mem_cons_self
          · exact (kept.calls which call before).mono grows
  | advance number works responses =>
    rcases Option.map_eq_some_iff.mp stepped with ⟨call, found, rfl⟩
    exact kept_advance kept found (advance_cases world.store works responses call)
  | forget key =>
    obtain rfl := Option.some.inj stepped
    refine ⟨?_, kept.returned, kept.calls⟩
    intro other stored there
    simp only [Function.update_apply] at there
    split_ifs at there
    exact kept.entries other stored there
  | tick elapsed =>
    obtain rfl := Option.some.inj stepped
    exact ⟨kept.entries, kept.returned, kept.calls⟩

theorem kept_initial (day : ℤ) : Kept env (.initial day) where
  entries _ _ there := by simp [World.initial] at there
  returned _ _ mem := absurd mem List.not_mem_nil
  calls _ _ there := by simp [World.initial] at there

theorem separate_of_kept (kept : Kept env world)
    (distinct : Distinct env world.store.history) : Separate world.store.history := by
  intro asked owner mem
  obtain ⟨sameKey, isAsked, owned⟩ := kept.returned asked owner mem
  exact subject_eq_of_key sameKey (distinct owner asked owned isAsked)

theorem sound_iff_backed (kept : Kept env world) :
    Sound env world.store ↔ Backed env world.store :=
  ⟨Sound.backed, fun backed => ⟨backed, separate_of_kept kept⟩⟩

theorem Backed.mono (backed : Backed env store) (cache : after.cache = store.cache)
    (grows : ∀ deed ∈ store.history, deed ∈ after.history) : Backed env after := by
  intro key stored there isClear
  obtain ⟨reply, replied, said⟩ := backed key stored (cache ▸ there) isClear
  exact ⟨reply, grows _ replied, said⟩

theorem isClear_none {kind : Kind} {entry : Entry} (substitute : kind.none = some entry) :
    entry.isClear = true := by
  cases kind with
  | text | image =>
    obtain rfl := Option.some.inj substitute
    rfl
  | audio => simp [Kind.none] at substitute

theorem backed_put {task : Task} {reply : List Char} {entry : Entry} (succeeds : works = true)
    (backed : Backed env store)
    (kept : (Call.storing task reply entry).Kept env store.history) :
    Backed env (store.put env task.subject entry) ↔
      CarefulCall env store works (.storing task reply entry) := by
  obtain ⟨-, replied, stands⟩ := kept
  constructor
  · intro after _ unusable
    rcases stands with usable | ⟨-, substitute⟩
    · simp [usable] at unusable
    · exact after _ ⟨entry, task.subject⟩ (Function.update_self ..) (isClear_none substitute)
  · intro careful key stored there isClear
    simp only [Store.put, Function.update_apply] at there
    split_ifs at there with same
    · obtain rfl := Option.some.inj there
      rcases stands with usable | ⟨unusable, -⟩
      · exact ⟨reply, replied, entry, usable, isClear⟩
      · exact careful succeeds unusable
    · exact backed key stored there isClear

theorem backed_step {action : Action} (kept : Kept env world)
    (backed : Backed env world.store) (stepped : world.step env action = some next) :
    Backed env next.store ↔ Careful env world action := by
  cases action with
  | begin number cfg orgID request =>
    simp only [World.step, Option.ite_none_right_eq_some] at stepped
    obtain ⟨-, stepped⟩ := stepped
    split at stepped
    · obtain rfl := Option.some.inj stepped
      exact iff_of_true backed trivial
    · obtain rfl := Option.some.inj stepped
      exact iff_of_true (backed.mono rfl fun _ mem => List.mem_cons_of_mem _ mem) trivial
  | forget key =>
    obtain rfl := Option.some.inj stepped
    refine iff_of_true ?_ trivial
    intro other stored there
    simp only [Function.update_apply] at there
    split_ifs at there
    exact backed other stored there
  | tick elapsed =>
    obtain rfl := Option.some.inj stepped
    exact iff_of_true backed trivial
  | advance number works responses =>
    rcases Option.map_eq_some_iff.mp stepped with ⟨call, found, rfl⟩
    have moved : Advance env world.store works call
        (world.store.advance env works responses call).1
        (world.store.advance env works responses call).2 :=
      advance_cases world.store works responses call
    have grows := grows_advance moved
    simp only [Careful, found, Option.some.injEq, forall_eq']
    generalize (world.store.advance env works responses call).1 = later at moved
    generalize (world.store.advance env works responses call).2 = after at moved grows
    cases moved with
    | quiet cache history careful => exact iff_of_true (backed.mono cache grows) careful
    | returned | replied => exact iff_of_true (backed.mono rfl grows) trivial
    | stored task reply entry succeeds =>
      exact backed_put succeeds backed (kept.calls number _ found)

/-- All along a run a kept verdict of nothing sensitive stands for one of a model, and nobody gets
the entry of another content, exactly if what could not be parsed is never kept, short of an
earlier verdict of a model. -/
theorem sound_iff_allCareful {day : ℤ}
    (executed : exec (World.step env) (.initial day) trace = some final) :
    (∀ reached, Visits (World.step env) (.initial day) trace reached →
        Sound env reached.store) ↔
      AllSteps (World.step env) (Careful env) (.initial day) trace := by
  have preserved : ∀ before action next,
      Kept env before ∧ Sound env before.store → Careful env before action →
      before.step env action = some next →
      Kept env next ∧ Sound env next.store := by
    rintro before action next ⟨kept, sound⟩ careful stepped
    have keptNext : Kept env next := kept_step kept stepped
    exact ⟨keptNext, (sound_iff_backed keptNext).mpr ((backed_step kept sound.backed stepped).mpr careful)⟩
  have initial : Kept env (.initial day) ∧ Sound env (World.initial day).store := by
    refine ⟨kept_initial day, (sound_iff_backed (kept_initial day)).mpr ?_⟩
    intro key stored there
    simp [World.initial] at there
  apply forall_visits_iff_allSteps (fun _ holds => holds.2) preserved
  · rintro before action next ⟨kept, sound⟩ stepped after
    exact (backed_step kept sound.backed stepped).mp after.backed
  · exact initial
  · exact executed

def clearReply : List Char := "\x7b\"sensitive\": false\x7d".toList

def refusal : List Char := "I cannot help with that.".toList

def plainPrimitives : Primitives where
  sha256 _ := ⟨#[218, 168, 69, 210, 162, 182, 28, 14, 9, 83, 181, 151, 83, 247, 17, 48,
    156, 69, 47, 11, 129, 166, 36, 75, 117, 177, 104, 250, 194, 232, 85, 107], rfl⟩
  parseJson text :=
    if text = clearReply then some (.object [("sensitive".toList, .bool false)]) else none
  asI64 _ := 0

def plainConfig : AiConfig where
  textModels := ["mistralai/mistral-small-2603"]
  visionModels := []
  audioModels := []
  textDailyCap := 20000
  visionDailyCap := 2000
  audioDailyCap := 500
  maxTextChars := 24000
  maxRetries := 3

def offer : List Char := "The offer to Globex expires on Friday.".toList

def replying (reply : List Char) : ℕ → ℕ → Response := fun _ _ =>
  .answered 200 (some (.object [("choices".toList, .array [.object [("message".toList,
    .object [("content".toList, .string reply)])]])]))

def classifying (reply : List Char) : List Action :=
  .begin 0 plainConfig "org" (.text offer) :: List.replicate 4 (.advance 0 true (replying reply))

def offered : Subject :=
  ⟨.text, offer.flatMap String.utf8EncodeChar, "mistralai/mistral-small-2603"⟩

theorem sound_iff_allCareful_clearReply :
    (∀ reached, Visits (World.step plainPrimitives) (.initial 0) (classifying clearReply) reached →
        Sound plainPrimitives reached.store) ↔
      AllSteps (World.step plainPrimitives) (Careful plainPrimitives) (.initial 0)
        (classifying clearReply) := by
  have runs : (exec (World.step plainPrimitives) (.initial 0) (classifying clearReply)).isSome =
      true := by
    decide +kernel
  rcases Option.isSome_iff_exists.mp runs with ⟨final, executed⟩
  exact sound_iff_allCareful executed

theorem not_saysClear_refusal : ¬SaysClear plainPrimitives .text refusal := by
  have unusable : Kind.read plainPrimitives refusal .text = .unusable := rfl
  rintro ⟨entry, usable, -⟩
  simp [unusable] at usable

/-- A refusal of the model is kept as clear. -/
theorem not_alwaysBacked : ¬∀ (final : World) (trace : List Action),
    exec (World.step plainPrimitives) (.initial 0) trace = some final →
      Sound plainPrimitives final.store := by
  intro always
  have kept : (exec (World.step plainPrimitives) (.initial 0) (classifying refusal)).map
      (fun final => ((final.store.cache (offered.key plainPrimitives)).map
        (fun stored => (stored.owner, stored.entry.isClear)), final.store.history)) =
      some (some (offered, true), [.replied offered refusal, .asked offered]) := by
    decide +kernel
  rcases Option.map_eq_some_iff.mp kept with ⟨final, executed, left⟩
  obtain ⟨cached, history⟩ := Prod.mk.inj left
  rcases Option.map_eq_some_iff.mp cached with ⟨stored, found, parts⟩
  obtain ⟨owner, isClear⟩ := Prod.mk.inj parts
  obtain ⟨reply, replied, saysClear⟩ :=
    (always final _ executed).backed _ stored found isClear
  rw [history, owner] at replied
  simp only [List.mem_cons, Deed.replied.injEq, reduceCtorEq, List.not_mem_nil, or_false,
    true_and] at replied
  rw [replied, owner] at saysClear
  exact not_saysClear_refusal saysClear

end Aavishield.Classifier

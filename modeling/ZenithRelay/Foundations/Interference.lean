import Mathlib

/-!
# Computations over storage that others write to

A program has memory of its own and calls a storage. Before each call others may
write, and the call may fail. What happens is a list of moments, one for each call;
a law for all lists covers every interference and every failure.
-/

set_option autoImplicit false

namespace ZenithRelay

/-- What comes with one call: what others write just before it, and its failure. -/
structure Moment (Storage Error : Type) where
  edit : Storage → Storage
  failure : Option Error

/-- Once the list is used up, nobody interferes and no call fails. -/
structure Scene (Memory Storage Error : Type) where
  memory : Memory
  storage : Storage
  ahead : List (Moment Storage Error)

abbrev Exposed (Memory Storage Error Result : Type) : Type :=
  ExceptT Error (StateM (Scene Memory Storage Error)) Result

namespace Scene

variable {Memory Storage Error : Type}

/-- Nobody else writes. -/
def Quiet (scene : Scene Memory Storage Error) : Prop :=
  ∀ moment ∈ scene.ahead, moment.edit = id

/-- Nobody else writes, and no call fails. -/
def Calm (scene : Scene Memory Storage Error) : Prop :=
  ∀ moment ∈ scene.ahead, moment.edit = id ∧ moment.failure = none

variable {scene middle after : Scene Memory Storage Error}

theorem Calm.quiet (calm : scene.Calm) : scene.Quiet :=
  fun moment member => (calm moment member).1

theorem Quiet.of_suffix {used : List (Moment Storage Error)} (quiet : scene.Quiet)
    (split : scene.ahead = used ++ after.ahead) : after.Quiet :=
  fun moment member => quiet moment (split ▸ List.mem_append_right used member)

theorem Calm.of_suffix {used : List (Moment Storage Error)} (calm : scene.Calm)
    (split : scene.ahead = used ++ after.ahead) : after.Calm :=
  fun moment member => calm moment (split ▸ List.mem_append_right used member)

/-- Only others have written since. -/
def Edited (scene after : Scene Memory Storage Error) : Prop :=
  ∃ used, scene.ahead = used ++ after.ahead ∧
    after.storage = used.foldl (fun storage moment => moment.edit storage) scene.storage

/-- Nothing has happened since but the writes of others. -/
structure Sees (scene after : Scene Memory Storage Error) : Prop where
  memory : after.memory = scene.memory
  edited : scene.Edited after

theorem Edited.trans (first : scene.Edited middle) (second : middle.Edited after) :
    scene.Edited after := by
  obtain ⟨used, split, storage⟩ := first
  obtain ⟨more, splitMore, storageMore⟩ := second
  refine ⟨used ++ more, ?_, ?_⟩
  · rw [split, splitMore, List.append_assoc]
  · rw [storageMore, storage, List.foldl_append]

/-- What no write of the others changes. -/
theorem Edited.keeps {holds : Storage → Prop} (edited : scene.Edited after)
    (kept : ∀ moment ∈ scene.ahead, ∀ storage, holds storage → holds (moment.edit storage))
    (initially : holds scene.storage) :
    holds after.storage ∧
      ∀ moment ∈ after.ahead, ∀ storage, holds storage → holds (moment.edit storage) := by
  obtain ⟨used, split, storage⟩ := edited
  rw [split] at kept
  refine ⟨?_, fun moment member => kept moment (List.mem_append_right used member)⟩
  rw [storage]
  exact List.foldlRecOn used _ initially fun storage holds moment member =>
    kept moment (List.mem_append_left _ member) storage holds

theorem Sees.refl (scene : Scene Memory Storage Error) : scene.Sees scene :=
  ⟨rfl, [], rfl, rfl⟩

theorem Sees.trans (first : scene.Sees middle) (second : middle.Sees after) : scene.Sees after :=
  ⟨second.memory.trans first.memory, first.edited.trans second.edited⟩

theorem Sees.quiet (sees : scene.Sees after) (quiet : scene.Quiet) :
    after.storage = scene.storage ∧ after.Quiet := by
  have unedited : ∀ moment ∈ scene.ahead, ∀ storage, storage = scene.storage →
      moment.edit storage = scene.storage := by
    intro moment member storage same
    rw [quiet moment member, same, id]
  obtain ⟨used, split, _⟩ := sees.edited
  exact ⟨(sees.edited.keeps unedited rfl).1, quiet.of_suffix split⟩

theorem Sees.calm (sees : scene.Sees after) (calm : scene.Calm) : after.Calm :=
  let ⟨_, split, _⟩ := sees.edited
  calm.of_suffix split

/-- The scene some calls later, when none of them wrote. -/
def later (scene : Scene Memory Storage Error) (calls : Nat) : Scene Memory Storage Error where
  memory := scene.memory
  storage := (scene.ahead.take calls).foldl (fun storage moment => moment.edit storage) scene.storage
  ahead := scene.ahead.drop calls

@[simp] theorem later_zero (scene : Scene Memory Storage Error) : scene.later 0 = scene := rfl

theorem later_later (scene : Scene Memory Storage Error) (first second : Nat) :
    (scene.later first).later second = scene.later (first + second) := by
  simp only [later, List.drop_drop, List.take_add, List.foldl_append]

theorem sees_later (scene : Scene Memory Storage Error) (calls : Nat) :
    scene.Sees (scene.later calls) :=
  ⟨rfl, scene.ahead.take calls, (List.take_append_drop calls scene.ahead).symm, rfl⟩

end Scene

namespace Exposed

variable {Memory Storage Error Result Next : Type}

/-- A look at the memory of the program. -/
def remembered (read : Memory → Result) : Exposed Memory Storage Error Result :=
  ExceptT.mk fun scene => (.ok (read scene.memory), scene)

/-- A change of the memory of the program. -/
def remember (change : Memory → Memory) : Exposed Memory Storage Error Unit :=
  ExceptT.mk fun scene => (.ok (), { scene with memory := change scene.memory })

/-- A call of the storage; one that fails leaves it. -/
def call (act : Storage → Except Error Result × Storage) : Exposed Memory Storage Error Result :=
  ExceptT.mk fun scene =>
    match scene.ahead with
    | [] => ((act scene.storage).1, { scene with storage := (act scene.storage).2 })
    | moment :: ahead =>
      match moment.failure with
      | some error => (.error error, { scene with storage := moment.edit scene.storage, ahead })
      | none =>
        ((act (moment.edit scene.storage)).1,
          { scene with storage := (act (moment.edit scene.storage)).2, ahead })

/-- A call that only reads. -/
def fetch (read : Storage → Result) : Exposed Memory Storage Error Result :=
  call fun storage => (.ok (read storage), storage)

def ensure (condition : Prop) [Decidable condition] (error : Error) :
    Exposed Memory Storage Error Unit :=
  if condition then pure () else throw error

/-- The program with its failure as a result: `let outcome = program;` -/
def outcome (program : Exposed Memory Storage Error Result) :
    Exposed Memory Storage Error (Except Error Result) :=
  ExceptT.mk (program.run >>= fun result => pure (.ok result))

/-! ### Laws -/

/-- The program ends in `post`. -/
def Gives (program : Exposed Memory Storage Error Result) (scene : Scene Memory Storage Error)
    (post : Except Error Result → Scene Memory Storage Error → Prop) : Prop :=
  post (program.run scene).1 (program.run scene).2

variable {scene : Scene Memory Storage Error}
  {post weak : Except Error Result → Scene Memory Storage Error → Prop}

theorem Gives.mono {program : Exposed Memory Storage Error Result}
    (gives : Gives program scene post)
    (weaker : ∀ result after, post result after → weak result after) :
    Gives program scene weak :=
  weaker _ _ gives

theorem Gives.and {program : Exposed Memory Storage Error Result}
    (first : Gives program scene post) (second : Gives program scene weak) :
    Gives program scene fun result after => post result after ∧ weak result after :=
  ⟨first, second⟩

@[simp] theorem gives_pure (result : Result) :
    Gives (pure result : Exposed Memory Storage Error Result) scene post ↔
      post (.ok result) scene := Iff.rfl

@[simp] theorem gives_throw (error : Error) :
    Gives (throw error : Exposed Memory Storage Error Result) scene post ↔
      post (.error error) scene := Iff.rfl

/-- A failure ends the program; a result is passed on. -/
theorem gives_bind (first : Exposed Memory Storage Error Result)
    (next : Result → Exposed Memory Storage Error Next)
    {final : Except Error Next → Scene Memory Storage Error → Prop} :
    Gives (first >>= next) scene final ↔
      Gives first scene fun result after =>
        match result with
        | .ok result => Gives (next result) after final
        | .error error => final (.error error) after := by
  unfold Gives
  rw [ExceptT.run_bind]
  simp only [bind, StateT.bind]
  cases first.run scene with
  | mk result after => cases result <;> rfl

theorem Gives.bind {first : Exposed Memory Storage Error Result}
    {next : Result → Exposed Memory Storage Error Next}
    {final : Except Error Next → Scene Memory Storage Error → Prop}
    (gives : Gives first scene post)
    (returned : ∀ result after, post (.ok result) after → Gives (next result) after final)
    (failed : ∀ error after, post (.error error) after → final (.error error) after) :
    Gives (first >>= next) scene final := by
  refine (gives_bind first next).mpr (gives.mono ?_)
  rintro (error | result) after holds
  · exact failed error after holds
  · exact returned result after holds

@[simp] theorem gives_remembered (read : Memory → Result) :
    Gives (remembered read) scene post ↔ post (.ok (read scene.memory)) scene := Iff.rfl

@[simp] theorem gives_remember (change : Memory → Memory)
    {post : Except Error Unit → Scene Memory Storage Error → Prop} :
    Gives (remember change) scene post ↔
      post (.ok ()) { scene with memory := change scene.memory } := Iff.rfl

@[simp] theorem gives_outcome (program : Exposed Memory Storage Error Result)
    {final : Except Error (Except Error Result) → Scene Memory Storage Error → Prop} :
    Gives (outcome program) scene final ↔
      Gives program scene fun result => final (.ok result) := Iff.rfl

theorem Gives.ensure {condition : Prop} [Decidable condition] {error : Error}
    {post : Except Error Unit → Scene Memory Storage Error → Prop}
    (holds : condition → post (.ok ()) scene) (fails : ¬condition → post (.error error) scene) :
    Gives (Exposed.ensure condition error) scene post := by
  unfold Exposed.ensure
  split
  next passes => exact holds passes
  next refuses => exact fails refuses

/-- Others may write before a call, and it may fail unless the scene is calm. -/
theorem Gives.call {act : Storage → Except Error Result × Storage}
    (fails : ∀ error middle, scene.Sees middle → ¬scene.Calm → post (.error error) middle)
    (acts : ∀ middle, scene.Sees middle →
      post (act middle.storage).1 { middle with storage := (act middle.storage).2 }) :
    Gives (Exposed.call act) scene post := by
  obtain ⟨memory, storage, ahead⟩ := scene
  cases ahead with
  | nil => exact acts ⟨memory, storage, []⟩ (.refl _)
  | cons moment ahead =>
      obtain ⟨edit, failure⟩ := moment
      have sees : Scene.Sees ⟨memory, storage, ⟨edit, failure⟩ :: ahead⟩
          ⟨memory, edit storage, ahead⟩ := ⟨rfl, [⟨edit, failure⟩], rfl, rfl⟩
      cases failure with
      | none => exact acts _ sees
      | some error =>
          refine fails error _ sees fun calm => ?_
          cases (calm ⟨edit, some error⟩ List.mem_cons_self).2

theorem Gives.fetch {read : Storage → Result}
    (fails : ∀ error middle, scene.Sees middle → ¬scene.Calm → post (.error error) middle)
    (reads : ∀ middle, scene.Sees middle → post (.ok (read middle.storage)) middle) :
    Gives (Exposed.fetch read) scene post :=
  Gives.call fails reads

/-- While nobody else writes and no call fails, the call acts on what is stored. -/
theorem Gives.call_calm {act : Storage → Except Error Result × Storage} (calm : scene.Calm) :
    Gives (Exposed.call act) scene fun result after =>
      result = (act scene.storage).1 ∧ after.storage = (act scene.storage).2 ∧
        after.memory = scene.memory ∧ after.Calm := by
  refine Gives.call (fun _ _ _ stormy => absurd calm stormy) fun middle sees => ?_
  have same : middle.storage = scene.storage := (sees.quiet calm.quiet).1
  rw [same]
  exact ⟨rfl, rfl, sees.memory, sees.calm calm⟩

theorem Gives.fetch_calm {read : Storage → Result} (calm : scene.Calm) :
    Gives (Exposed.fetch read) scene fun result after =>
      result = .ok (read scene.storage) ∧ after.storage = scene.storage ∧
        after.memory = scene.memory ∧ after.Calm :=
  Gives.call_calm calm

/-- What every item of a loop keeps. -/
theorem Gives.forM_keeps {Item : Type} {items : List Item}
    {body : Item → Exposed Memory Storage Error PUnit}
    (holds : Scene Memory Storage Error → Prop)
    (keeps : ∀ item scene, holds scene → Gives (body item) scene fun _ after => holds after)
    {scene : Scene Memory Storage Error} (initially : holds scene) :
    Gives (items.forM body) scene fun _ after => holds after := by
  induction items generalizing scene with
  | nil => exact initially
  | cons item items ih =>
      exact (keeps item scene initially).bind (fun _ _ holds => ih holds) fun _ _ holds => holds

/-! ### Programs that only look -/

/-- The program writes nothing. -/
def Looks (program : Exposed Memory Storage Error Result) : Prop :=
  ∀ scene, Gives program scene fun _ after => scene.Sees after

theorem Looks.pure (result : Result) :
    Looks (Pure.pure result : Exposed Memory Storage Error Result) :=
  fun scene => .refl scene

theorem Looks.bind {first : Exposed Memory Storage Error Result}
    {next : Result → Exposed Memory Storage Error Next} (looks : Looks first)
    (rest : ∀ result, Looks (next result)) : Looks (first >>= next) := by
  intro scene
  refine (looks scene).bind ?_ fun _ _ sees => sees
  intro result middle sees
  exact (rest result middle).mono fun _ _ seesRest => sees.trans seesRest

theorem Looks.fetch (read : Storage → Result) :
    Looks (Exposed.fetch read : Exposed Memory Storage Error Result) :=
  fun _ => Gives.fetch (fun _ _ sees _ => sees) fun _ sees => sees

theorem Looks.remembered (read : Memory → Result) :
    Looks (Exposed.remembered read : Exposed Memory Storage Error Result) :=
  fun scene => .refl scene

theorem Looks.ensure (condition : Prop) [Decidable condition] (error : Error) :
    Looks (Exposed.ensure condition error : Exposed Memory Storage Error Unit) :=
  fun scene => Gives.ensure (fun _ => .refl scene) fun _ => .refl scene

/-- What is stored is compared with what is expected. -/
theorem Looks.compare (read : Storage → Result) (expected : Result → Prop)
    [DecidablePred expected] (error : Error) :
    Looks (Exposed.fetch read >>= fun value => Exposed.ensure (expected value) error :
      Exposed Memory Storage Error Unit) :=
  (Looks.fetch read).bind fun value => .ensure (expected value) error

theorem Gives.compare_passes {read : Storage → Result} {expected : Result → Prop}
    [DecidablePred expected] {error : Error} (calm : scene.Calm)
    (passes : expected (read scene.storage)) :
    Gives (Exposed.fetch read >>= fun value => Exposed.ensure (expected value) error) scene
      fun result _ => result = .ok () := by
  refine (Gives.fetch_calm calm).bind ?_ ?_
  · rintro value after ⟨same, _⟩
    injection same with same
    subst same
    exact Gives.ensure (fun _ => rfl) fun refused => absurd passes refused
  · rintro error after ⟨same, _⟩
    cases same

/-- A read is one call: it returns what is stored by then. -/
theorem Gives.fetch_later {read : Storage → Result} :
    Gives (Exposed.fetch read) scene fun result after =>
      after = scene.later 1 ∧ ∀ value, result = .ok value → value = read (scene.later 1).storage := by
  obtain ⟨memory, storage, ahead⟩ := scene
  cases ahead with
  | nil =>
      refine ⟨rfl, ?_⟩
      rintro _ ⟨⟩
      rfl
  | cons moment ahead =>
      obtain ⟨edit, failure⟩ := moment
      cases failure with
      | none =>
          refine ⟨rfl, ?_⟩
          rintro _ ⟨⟩
          rfl
      | some error =>
          refine ⟨rfl, ?_⟩
          rintro _ ⟨⟩

/-- A comparison is one call: it passes only on what is stored by then. -/
theorem Gives.compare_later {read : Storage → Result} {expected : Result → Prop}
    [DecidablePred expected] {error : Error} :
    Gives (Exposed.fetch read >>= fun value => Exposed.ensure (expected value) error) scene
      fun result after => after = scene.later 1 ∧
        (result = .ok () → expected (read (scene.later 1).storage)) := by
  refine Gives.fetch_later.bind ?_ ?_
  · rintro value _ ⟨rfl, reads⟩
    refine Gives.ensure (fun passes => ⟨rfl, fun _ => ?_⟩) fun _ => ⟨rfl, (by rintro ⟨⟩)⟩
    rwa [← reads value rfl]
  · rintro error _ ⟨rfl, -⟩
    exact ⟨rfl, (by rintro ⟨⟩)⟩

/-- Items of one call each, tested one after the other. -/
theorem Gives.forM_later {Item : Type} {items : List Item}
    {body : Item → Exposed Memory Storage Error PUnit} {p : Item → Storage → Prop}
    (tests : ∀ item scene, Gives (body item) scene fun result after =>
      after = scene.later 1 ∧ (result = .ok () → p item (scene.later 1).storage))
    {scene : Scene Memory Storage Error} :
    Gives (items.forM body) scene fun result after => result = .ok () →
      after = scene.later items.length ∧ ∀ before item rest, items = before ++ item :: rest →
        p item (scene.later (before.length + 1)).storage := by
  induction items generalizing scene with
  | nil => exact fun _ => ⟨rfl, by simp⟩
  | cons head items ih =>
      show Gives (body head >>= fun _ => items.forM body) scene _
      refine (tests head scene).bind ?_ fun _ _ _ failed => by cases failed
      rintro _ _ ⟨rfl, passed⟩
      refine ih.mono fun result after tested ended => ?_
      obtain ⟨rfl, others⟩ := tested ended
      refine ⟨by rw [Scene.later_later, List.length_cons, Nat.add_comm], ?_⟩
      rintro before item rest split
      cases before with
      | nil =>
          injection split with same
          exact same ▸ passed rfl
      | cons first before =>
          injection split with _ split
          have there := others before item rest split
          rwa [Scene.later_later, Nat.add_comm] at there

theorem Looks.forM {Item : Type} {items : List Item}
    {body : Item → Exposed Memory Storage Error PUnit} (looks : ∀ item, Looks (body item)) :
    Looks (items.forM body) := by
  induction items with
  | nil => exact Looks.pure ()
  | cons item items ih => exact (looks item).bind fun _ => ih

/-- Every item passes, at whatever others have written by then. -/
theorem Gives.forM_passes {Item : Type} {items : List Item}
    {body : Item → Exposed Memory Storage Error PUnit} {scene : Scene Memory Storage Error}
    (looks : ∀ item, Looks (body item))
    (passes : ∀ item ∈ items, ∀ after : Scene Memory Storage Error, scene.Sees after →
      Gives (body item) after fun result _ => result = .ok ()) :
    Gives (items.forM body) scene fun result _ => result = .ok () := by
  induction items generalizing scene with
  | nil => exact rfl
  | cons item items ih =>
      show Gives (body item >>= fun _ => items.forM body) scene _
      refine ((passes item List.mem_cons_self scene (.refl scene)).and (looks item scene)).bind
        ?_ ?_
      · rintro result middle ⟨_, sees⟩
        refine ih fun item member after seesLater => ?_
        exact passes item (List.mem_cons_of_mem _ member) after (sees.trans seesLater)
      · rintro error middle ⟨isOk, _⟩
        cases isOk

end Exposed

end ZenithRelay

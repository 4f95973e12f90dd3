import SimSetup.Proofs.Boundary.Entries

/-!
# Roles are tags

Kinds with a pressure differ in what they are called: whatever is done with a boundary of one such
kind goes the same way for another, but that faults name the other kind. A boundary is also what it
is under another kind once it is built again from its attributes, unless it would lose its pressure.
-/

namespace SimSetup.Boundary

def withKind (b : Boundary) (k : Kind) : Boundary := { b with kind := k }

def Fault.withKind (k : Kind) : Fault → Fault
  | unexpected _ name => .unexpected k name
  | invalid path expected => .invalid path expected
  | unknown _ path => .unknown k path

/-- `Alike k b x y`: `y` goes from `b` under the kind `k` as `x` goes from `b` itself. -/
def Alike (k : Kind) (b : Boundary) (x y : Edit α) : Prop :=
  y.run (b.withKind k) = ((x.run b).1.mapError (.withKind k), (x.run b).2.withKind k)

/-- One step of what is done with a boundary: it is made, and may be made anew, or changed or
read. -/
inductive Operation
  | new
  | ofAttributes (given : Attributes)
  | change (c : Change)
  | read (path : String)

/-- What a step tells; `absent` when there is no boundary yet to change or read. -/
inductive Reply
  | done
  | stale (derived : List String)
  | value (v : Option Value)
  | failed (fault : Fault)
  | absent

def Reply.withKind (k : Kind) : Reply → Reply
  | failed fault => .failed (fault.withKind k)
  | reply => reply

def Change.reply (b : Boundary) : Change → Reply
  | set path v =>
    match ((Boundary.set path v).run b).1 with
    | .ok derived => .stale derived
    | .error fault => .failed fault
  | _ => .done

/-- A boundary that cannot be made leaves the one there was. -/
def Operation.run (k : Kind) (b? : Option Boundary) : Operation → Reply × Option Boundary
  | new => (.done, some (Boundary.new k))
  | ofAttributes given =>
    match Boundary.ofAttributes k given with
    | .ok b => (.done, some b)
    | .error fault => (.failed fault, b?)
  | change c =>
    match b? with
    | some b => (c.reply b, some (c.apply b))
    | none => (.absent, none)
  | read path =>
    match b? with
    | some b => (.value (b.get? path), some b)
    | none => (.absent, none)

/-- All replies, and the boundary there is at the end. -/
def session (k : Kind) (b? : Option Boundary) : List Operation → List Reply × Option Boundary
  | [] => ([], b?)
  | op :: ops =>
    let (reply, next?) := op.run k b?
    let (replies, last?) := session k next? ops
    (reply :: replies, last?)

/-- The boundary as another kind has it: what both kinds have stays, and a pressure that there was
not is the default. -/
def retyped (b : Boundary) (k : Kind) : Boundary where
  kind := k
  name := b.name
  centre := b.centre
  normal := b.normal
  radius := b.radius
  pressure := if k.hasPressure then some (b.pressure.getD Attribute.pressure.default) else none
  dependencies := k.dependencies

-- ---------------------------------------------------------------------------
-- Kinds that agree on the pressure
-- ---------------------------------------------------------------------------

section
variable {k k' : Kind} (h : k.hasPressure = k'.hasPressure)
include h

theorem attributes_eq : k'.attributes = k.attributes := by
  rw [Kind.attributes, ← h]
  rfl

theorem recognizes_eq (name : String) : k'.recognizes name = k.recognizes name := by
  rw [Kind.recognizes, attributes_eq h]
  rfl

theorem dependencies_eq : k'.dependencies = k.dependencies := by
  rw [Kind.dependencies, ← h]
  rfl

theorem new_withKind : new k' = (new k).withKind k' := by
  rw [new, dependencies_eq h, ← h]
  rfl

end

-- ---------------------------------------------------------------------------
-- Reading
-- ---------------------------------------------------------------------------

section
variable (b : Boundary) (k : Kind)

@[simp] theorem withKind_kind : (b.withKind k).kind = k := rfl

@[simp] theorem value?_withKind (a : Attribute) : (b.withKind k).value? a = b.value? a := by
  cases a <;> rfl

@[simp] theorem vector?_withKind (a : Attribute) : (b.withKind k).vector? a = b.vector? a := by
  cases a <;> rfl

theorem get?_withKind (path : String) : (b.withKind k).get? path = b.get? path := by
  simp only [get?, value?_withKind, vector?_withKind]

end

-- ---------------------------------------------------------------------------
-- Editing
-- ---------------------------------------------------------------------------

theorem Alike.throw (k : Kind) (b : Boundary) (fault : Fault) :
    Alike (α := α) k b (throw fault) (throw (fault.withKind k)) := rfl

theorem Alike.require (k : Kind) (b : Boundary) (path : String) (expected : Shape) (a? : Option α) :
    Alike k b (require path expected a?) (require path expected a?) := by
  cases a? <;> rfl

theorem Alike.get {f : Boundary → Edit α} (h : Alike k b (f b) (f (b.withKind k))) :
    Alike k b (get >>= f) (get >>= f) := by
  rw [Alike, run_bind, run_bind]
  exact h

theorem Alike.bind {x y : Edit α} {f g : α → Edit β} (hxy : Alike k b x y)
    (hfg : ∀ a b', x.run b = (.ok a, b') → Alike k b' (f a) (g a)) :
    Alike k b (x >>= f) (y >>= g) := by
  rw [Alike, run_bind, run_bind, hxy]
  rcases hx : x.run b with ⟨e | a, b'⟩
  · rfl
  · exact hfg a b' hx

section
variable {b : Boundary} {k : Kind} (hk : b.kind.hasPressure = k.hasPressure)
include hk

theorem Alike.assign (a : Attribute) (v : Value) : Alike k b (assign a v) (assign a v) := by
  cases a with
  | name => cases v <;> rfl
  | centre | normal | radius => exact .bind (.require ..) fun _ _ _ => rfl
  | pressure =>
    -- only here does an assignment look at the kind
    refine .get ?_
    rw [withKind_kind, ← hk]
    cases b.kind.hasPressure with
    | false => exact .throw ..
    | true =>
      show Alike k b (assign.liftExcept (pressureOf v) >>= _) (assign.liftExcept (pressureOf v) >>= _)
      refine .bind ?_ fun _ _ _ => rfl
      cases hg : v.hasGap <;> simp only [pressureOf, hg] <;> rfl

theorem Alike.assignComponent (name component : String) (v : Value) :
    Alike k b (assignComponent name component v) (assignComponent name component v) := by
  refine .get ?_
  simp only [vector?_withKind]
  cases (Attribute.ofLabel? name).bind fun a => (b.vector? a).map (a, ·) with
  | none => exact .throw ..
  | some found =>
    cases v.number? with
    | none => rfl
    | some x =>
      refine .bind (.require ..) ?_
      rintro _ _ ⟨⟩
      cases Axis.ofLabel? component with
      | none => exact .throw ..
      | some axis => exact .assign hk ..

theorem Alike.set (path : String) (v : Value) : Alike k b (set path v) (set path v) := by
  refine .get ?_
  rcases splitPath path with ⟨name, _ | component⟩
  · simp only [withKind_kind, attributes_eq hk]
    cases b.kind.attributes.find? (·.label = name) with
    | none => exact .throw ..
    | some a => exact .bind (.assign hk a v) fun _ _ _ => rfl
  · exact .bind (.assignComponent hk name component v) fun _ _ _ => rfl

theorem Alike.assignAll (given : Attributes) (as : List Attribute) :
    Alike k b (assignAll given as) (assignAll given as) := by
  induction as generalizing b with
  | nil => rfl
  | cons a as ih =>
    refine .bind (.assign hk ..) fun _ b' hrun => ih ?_
    rcases run_assign a (given.getD a.label a.default) b with ⟨_, hok, hassigns⟩ | ⟨_, herror⟩
    · rw [hok] at hrun
      cases hrun
      rw [hassigns.kind, hk]
    · rw [herror] at hrun
      cases hrun

theorem apply_withKind (c : Change) : c.apply (b.withKind k) = (c.apply b).withKind k := by
  cases c with
  | set path v => exact congrArg Prod.snd (Alike.set hk path v)
  | name | centre | normal | radius => rfl
  | pressure v =>
    show (b.withKind k).withPressure v = (b.withPressure v).withKind k
    rw [withPressure, withPressure, withKind_kind, ← hk]
    cases b.kind.hasPressure <;> cases pressureOf v <;> rfl

theorem reply_withKind (c : Change) : c.reply (b.withKind k) = (c.reply b).withKind k := by
  cases c with
  | set path v =>
    rw [Change.reply, Change.reply, Alike.set hk path v]
    cases ((Boundary.set path v).run b).1 <;> rfl
  | name | centre | normal | radius | pressure => rfl

end

theorem ofAttributes_withKind {k k' : Kind} (h : k.hasPressure = k'.hasPressure) (given : Attributes) :
    ofAttributes k' given = ((ofAttributes k given).mapError (.withKind k')).map (withKind · k') := by
  have hrun := Alike.assignAll (b := new k) h given k.attributes
  simp only [ofAttributes, recognizes_eq h, attributes_eq h, new_withKind h]
  cases given.keys.find? (!k.recognizes ·) with
  | some name => rfl
  | none =>
    simp only
    rw [hrun]
    rcases (assignAll given k.attributes).run (new k) with ⟨_ | _, _⟩ <;> rfl

-- ---------------------------------------------------------------------------
-- Sessions
-- ---------------------------------------------------------------------------

theorem apply_kind (c : Change) (b : Boundary) : (c.apply b).kind = b.kind := by
  cases c with
  | set path v =>
    show ((Boundary.set path v).run b).2.kind = b.kind
    rcases run_set path v b with ⟨_, _, b', -, hassigns, hrun⟩ | ⟨_, hrun⟩
    · rw [hrun, hassigns.kind]
    · rw [hrun]
  | name | centre | normal | radius => rfl
  | pressure v =>
    show (b.withPressure v).kind = b.kind
    rcases withPressure_cases b v with ⟨-, -, hb⟩ | ⟨-, hb⟩ <;> rw [hb]

theorem Operation.run_keeps (op : Operation) (hb : ∀ b ∈ b?, Reachable b ∧ b.kind = k) :
    ∀ b ∈ (op.run k b?).2, Reachable b ∧ b.kind = k := by
  cases op with
  | new =>
    rintro _ ⟨⟩
    exact ⟨.new k, rfl⟩
  | ofAttributes given =>
    cases hmade : Boundary.ofAttributes k given with
    | error => simpa only [run, hmade] using hb
    | ok b =>
      simp only [run, hmade]
      rintro _ ⟨⟩
      exact ⟨.ofAttributes hmade, ofAttributes_kind hmade⟩
  | change c =>
    cases b? with
    | none => exact hb
    | some b =>
      obtain ⟨hreach, hkind⟩ := hb b rfl
      rintro _ ⟨⟩
      exact ⟨.change c hreach, (apply_kind c b).trans hkind⟩
  | read path => cases b? <;> exact hb

theorem session_keeps (ops : List Operation) (hb : ∀ b ∈ b?, Reachable b ∧ b.kind = k) :
    ∀ b ∈ (session k b? ops).2, Reachable b ∧ b.kind = k := by
  induction ops generalizing b? with
  | nil => exact hb
  | cons op ops ih => exact ih (op.run_keeps hb)

section
variable {k k' : Kind} {b? : Option Boundary} (h : k.hasPressure = k'.hasPressure)
  (hb : ∀ b ∈ b?, Reachable b ∧ b.kind = k)
include h hb

theorem Operation.run_withKind (op : Operation) :
    op.run k' (b?.map (withKind · k')) =
      ((op.run k b?).1.withKind k', (op.run k b?).2.map (withKind · k')) := by
  cases op with
  | new => rw [run, new_withKind h]; rfl
  | ofAttributes given =>
    rw [run, run, ofAttributes_withKind h]
    cases Boundary.ofAttributes k given <;> rfl
  | change c =>
    cases b? with
    | none => rfl
    | some b =>
      have hk : b.kind.hasPressure = k'.hasPressure := (hb b rfl).2 ▸ h
      exact Prod.ext (reply_withKind hk c) (congrArg some (apply_withKind hk c))
  | read path =>
    cases b? with
    | none => rfl
    | some b => exact Prod.ext (congrArg Reply.value (get?_withKind b k' path)) rfl

theorem session_withKind (ops : List Operation) :
    session k' (b?.map (withKind · k')) ops =
      ((session k b? ops).1.map (Reply.withKind k'), (session k b? ops).2.map (withKind · k')) := by
  induction ops generalizing b? with
  | nil => rfl
  | cons op ops ih =>
    rw [session, op.run_withKind h hb]
    simp only
    rw [ih (op.run_keeps hb)]
    rfl

end

-- ---------------------------------------------------------------------------
-- Another kind
-- ---------------------------------------------------------------------------

theorem WellFormed.retyped (hx : WellFormed x) (k : Kind) : WellFormed (x.retyped k) where
  hasPressure := by
    show Option.isSome (ite _ _ _) = k.hasPressure
    cases k.hasPressure <;> rfl
  storable := by
    intro v hv
    have hv : (if k.hasPressure then some (x.pressure.getD Attribute.pressure.default) else none) =
      some v := hv
    split at hv
    · cases hv
      cases hpressure : x.pressure with
      | none => exact ⟨rfl, rfl⟩
      | some p => exact hx.storable p hpressure
    · cases hv
  dependencies := rfl

theorem WellFormed.getElem?_label (hx : WellFormed x) (a : Attribute) :
    x.toAttributes[a.label]? = x.value? a := by
  ext v
  rw [getElem?_toAttributes]
  constructor
  · rintro ⟨a', -, hlabel, hv⟩
    rwa [Attribute.label_injective hlabel] at hv
  · intro hv
    refine ⟨a, mem_attributes_iff.mpr ?_, rfl, hv⟩
    rintro rfl
    have hv : x.pressure = some v := hv
    rw [← hx.hasPressure, hv]
    rfl

theorem value?_retyped (x : Boundary) (ha : a ∈ k.attributes) :
    (x.retyped k).value? a = some ((x.value? a).getD a.default) := by
  cases a with
  | pressure => exact if_pos (hasPressure_of_mem ha)
  | name | centre | normal | radius => rfl

theorem WellFormed.gives_retyped (hx : WellFormed x) (k : Kind) :
    Gives x.toAttributes (x.retyped k) := by
  intro a ha v hv
  rw [value?_retyped (k := k) x ha] at hv
  rw [Std.ExtTreeMap.getD_eq_getD_getElem?, hx.getElem?_label]
  exact Option.some.inj hv

section
variable {k k' : Kind} {key : String}

theorem recognizes_of_hasPressure (h : k.hasPressure = true ∨ k'.hasPressure = false)
    (hkey : k'.recognizes key = true) : k.recognizes key = true := by
  obtain ⟨a, ha, hlabel⟩ := recognizes_iff.mp hkey
  refine recognizes_iff.mpr ⟨a, mem_attributes_iff.mpr fun hpressure => ?_, hlabel⟩
  rcases h with h | h
  · exact h
  · rw [mem_attributes_iff.mp ha hpressure] at h
    cases h

theorem eq_pressure_of_not_recognizes (hkey : k'.recognizes key = true)
    (h : k.recognizes key = false) : key = Attribute.pressure.label := by
  obtain ⟨a, -, rfl⟩ := recognizes_iff.mp hkey
  by_contra hne
  have ha : a ∈ k.attributes := mem_attributes_iff.mpr fun heq => absurd (congrArg _ heq) hne
  rw [recognizes_iff.mpr ⟨a, ha, rfl⟩] at h
  cases h

end

theorem WellFormed.ofAttributes_retyped (hx : WellFormed x)
    (h : k.hasPressure = true ∨ x.kind.hasPressure = false) :
    ofAttributes k x.toAttributes = .ok (x.retyped k) := by
  refine (hx.retyped k).ofAttributes_gives (fun key hkey => ?_) (hx.gives_retyped k)
  exact recognizes_of_hasPressure h ((hx.mem_toAttributes key).mp hkey)

theorem WellFormed.ofAttributes_unexpected (hx : WellFormed x) (hk : k.hasPressure = false)
    (hpressure : x.kind.hasPressure = true) :
    ofAttributes k x.toAttributes = .error (.unexpected k Attribute.pressure.label) := by
  -- every key is an attribute of `x`, and of these `k` lacks the pressure and no other
  have hfind : x.toAttributes.keys.find? (!k.recognizes ·) = some Attribute.pressure.label := by
    cases hfound : x.toAttributes.keys.find? (!k.recognizes ·) with
    | some key =>
      have hkey := (hx.mem_toAttributes key).mp
        (Std.ExtTreeMap.mem_keys.mp (List.mem_of_find?_eq_some hfound))
      rw [eq_pressure_of_not_recognizes hkey (by simpa using List.find?_some hfound)]
    | none =>
      have hmem := (hx.mem_toAttributes Attribute.pressure.label).mpr
        (recognizes_iff.mpr ⟨.pressure, mem_attributes_iff.mpr fun _ => hpressure, rfl⟩)
      have hrec := List.find?_eq_none.mp hfound _ (Std.ExtTreeMap.mem_keys.mpr hmem)
      obtain ⟨a, ha, hlabel⟩ := recognizes_iff.mp (by simpa using hrec)
      rw [Attribute.label_injective hlabel, mem_attributes_iff] at ha
      rw [ha rfl] at hk
      cases hk
  rw [ofAttributes, hfind]

/-- Kinds with a pressure go through every session alike, with replies and a boundary at the end
that differ in the kind they name. A boundary that any session leaves is built again under a kind
exactly when it does not lose its pressure by that, and is then the same in all that the kind does
not settle. -/
theorem session_roles [Trig] :
    (∀ k k' : Kind, k.hasPressure = true → k'.hasPressure = true → ∀ ops : List Operation,
      (session k' none ops).1 = (session k none ops).1.map (Reply.withKind k') ∧
        (session k' none ops).2 = (session k none ops).2.map (withKind · k') ∧
        ∀ b ∈ (session k none ops).2, b.kind = k ∧
          (b.withKind k').toAttributes = b.toAttributes ∧
          (b.withKind k').plane = b.plane ∧
          (b.withKind k').pressureEquation = b.pressureEquation ∧
          (b.withKind k').dependencies = b.dependencies) ∧
      ∀ (k₀ : Kind) (ops : List Operation), ∀ x ∈ (session k₀ none ops).2, ∀ k : Kind,
        if k.hasPressure = true ∨ x.kind.hasPressure = false then
          ofAttributes k x.toAttributes = .ok (x.retyped k) ∧ (x.retyped k).plane = x.plane
        else ofAttributes k x.toAttributes = .error (.unexpected k Attribute.pressure.label) := by
  have hnone (k : Kind) : ∀ b ∈ (none : Option Boundary), Reachable b ∧ b.kind = k := nofun
  refine ⟨fun k k' hk hk' ops => ?_, fun k₀ ops x hx k => ?_⟩
  · have h : k.hasPressure = k'.hasPressure := hk.trans hk'.symm
    have hrun := session_withKind h (hnone k) ops
    refine ⟨congrArg Prod.fst hrun, congrArg Prod.snd hrun, fun b hb => ?_⟩
    obtain ⟨-, rfl⟩ := session_keeps ops (hnone k) b hb
    refine ⟨rfl, ?_, rfl, rfl, rfl⟩
    simp only [toAttributes, withKind_kind, attributes_eq h, value?_withKind]
  · have hwell := (session_keeps ops (hnone k₀) x hx).1.wellFormed
    split
    · rename_i h
      exact ⟨hwell.ofAttributes_retyped h, rfl⟩
    · rename_i h
      obtain ⟨hk, hpressure⟩ := not_or.mp h
      exact hwell.ofAttributes_unexpected (Bool.eq_false_iff.mpr hk) (by simpa using hpressure)

/-- A component that does not exist is a fault of the outlet, and its pressure is read all the same;
a plain boundary becomes an outlet with the default pressure. -/
theorem session_roles_outlet :
    (session .outlet none [.ofAttributes ∅, .change (.set "Centre.w" (.number 1.0)),
        .read "Pressure.x"]).1 =
      [.done, .failed (.unknown .outlet "Centre.w"), .value (some (.number 80.0))] ∧
      ∃ x, (session .plain none [.new, .change (.radius 2.0)]).2 = some x ∧
        ofAttributes .outlet x.toAttributes = .ok { new .outlet with radius := 2.0 } := by
  let ops : List Operation :=
    [.ofAttributes ∅, .change (.set "Centre.w" (.number 1.0)), .read "Pressure.x"]
  have hinlet : (session .inlet none ops).1 =
    [.done, .failed (.unknown .inlet "Centre.w"), .value (some (.number 80.0))] := rfl
  have hx : (session .plain none [.new, .change (.radius 2.0)]).2 =
    some ((new .plain).withRadius 2.0) := rfl
  refine ⟨(session_roles.1 .inlet .outlet rfl rfl ops).1.trans (by rw [hinlet]; rfl), _, hx, ?_⟩
  have hbuilt := session_roles.2 .plain [.new, .change (.radius 2.0)] _ hx .outlet
  rw [if_pos (.inl rfl)] at hbuilt
  exact hbuilt.1

end SimSetup.Boundary

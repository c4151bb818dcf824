import VirtualTerminal.Backend.Scripted
import VirtualTerminal.Proofs.Registry.Operations

/-!
# Registry — Restriction

A registry is restricted to a name by excluding the names of all its other backends.

* `excludes_disable`, `excludes_restrictTo`: which names are excluded then, told by comparing names
  without regard to the case of ASCII letters, as everywhere.
* `Performed.settings`: what an operation does to the backends and to the names excluded.
* `Narrowed`: a registry, and one that is like it for the backends of a name and excludes others.
  The same operations on both keep this (`Narrowed.after`).

**A restriction holds for every later selection** (`restricts_to_the_named`).
-/

namespace VirtualTerminal.Registry

variable {ω η : Type} {r r' q q' : Registry} {name : String}

/-! ### Names -/

theorem sameName_iff {a b : String} :
    sameName a b = true ↔ a.toList.map Char.toLower = b.toList.map Char.toLower := by
  rw [sameName, beq_iff_eq]

theorem excludes_iff (r : Registry) (name : String) :
    r.Excludes name ↔ ∃ d ∈ r.disabled, sameName d name = true := by
  simp only [Excludes, sameName_iff]

theorem excludes_congr {a b : String} (h : sameName a b = true) : r.Excludes a ↔ r.Excludes b := by
  rw [Excludes, Excludes, sameName_iff.mp h]

/-! ### Excluding names -/

/-- To disable a name excludes it, and nothing else. -/
theorem excludes_disable (r : Registry) (name other : String) :
    (r.disable name).Excludes other ↔ r.Excludes other ∨ sameName name other = true := by
  rw [disable]
  split
  · next h =>
    refine (or_iff_left_of_imp fun hsame => ?_).symm
    exact (excludes_congr hsame).mp ((isDisabled_iff r name).mp h)
  · rw [excludes_iff, excludes_iff]
    simp only [List.mem_append, List.mem_singleton, or_and_right, exists_or, exists_eq_left]

theorem excludes_foldl_disable (names : List String) (r : Registry) (other : String) :
    (names.foldl disable r).Excludes other ↔
      r.Excludes other ∨ ∃ name ∈ names, sameName name other = true := by
  induction names generalizing r with
  | nil => simp
  | cons name names ih =>
    rw [List.foldl_cons, ih, excludes_disable, or_assoc]
    simp only [List.mem_cons, or_and_right, exists_or, exists_eq_left]

/-- A restriction to a name of a list excludes a name: that of an element with another name. -/
def Bars (names : List String) (name other : String) : Prop :=
  ∃ b ∈ names, sameName name b = false ∧ sameName b other = true

/-- **A restriction** excludes what it bars, and what was excluded before. -/
theorem excludes_restrictTo (h : r.restrictTo name = .ok q) (other : String) :
    q.Excludes other ↔ r.Excludes other ∨ Bars r.names name other := by
  rw [restrictTo] at h
  split at h
  · obtain rfl := Except.ok.inj h
    rw [excludes_foldl_disable]
    simp only [Bars, List.mem_filter, Bool.not_eq_true', and_assoc]
  · cases h

/-- **A restriction fails** exactly if no backend has the name. -/
theorem restrictTo_eq_error_iff {e : Error} : r.restrictTo name = .error e ↔
    (∀ other ∈ r.names, sameName name other = false) ∧ e = .config (.unknownBackend name) := by
  rw [restrictTo]
  split
  · next h =>
    obtain ⟨other, hother, hsame⟩ := List.any_eq_true.mp h
    constructor
    · intro h
      cases h
    · rintro ⟨hnone, -⟩
      rw [hnone other hother] at hsame
      cases hsame
  · next h =>
    have hnone : ∀ other ∈ r.names, sameName name other = false := by simpa using h
    constructor
    · intro h
      exact ⟨hnone, (Except.error.inj h).symm⟩
    · rintro ⟨-, rfl⟩
      rfl

/-- A restriction is made only to a name that is registered. -/
theorem exists_of_restrictTo (h : r.restrictTo name = .ok q) :
    ∃ other ∈ r.names, sameName name other = true := by
  rw [restrictTo] at h
  split at h
  · next hany => exact List.any_eq_true.mp hany
  · cases h

/-! ### What an operation does to the settings -/

/-- The backends, in the order of registration. -/
def backends (r : Registry) : List Backend := r.registrations.map Registration.backend

theorem names_eq (r : Registry) : r.names = r.backends.map Backend.name := by
  rw [names, backends, List.map_map]
  rfl

/-- The backends that an operation adds. -/
def Operation.added : Operation → List Backend
  | .register b => [b]
  | _ => []

/-- An operation excludes a name from a registry with backends of these names. -/
def Operation.Excludes (names : List String) (other : String) : Operation → Prop
  | .disable name => sameName name other = true
  | .restrict name => (∃ b ∈ names, sameName name b = true) ∧ Bars names name other
  | _ => False

theorem backends_remember (r : Registry) (place : Nat) (available : Option Bool) :
    (r.remember place available).backends = r.backends := by
  refine List.ext_getElem? fun i => ?_
  simp only [backends, remember, List.getElem?_map, List.getElem?_modify]
  cases r.registrations[i]? with
  | none => rfl
  | some e =>
    show some (Registration.backend (if place = i then _ else e)) = some e.backend
    split <;> rfl

/-- To learn from trials changes neither the backends nor the settings. -/
theorem foldl_learn_settings (ts : List (Trial ω η)) (r : Registry) :
    (ts.foldl learn r).backends = r.backends ∧ (ts.foldl learn r).disabled = r.disabled := by
  induction ts generalizing r with
  | nil => exact ⟨rfl, rfl⟩
  | cons t ts ih =>
    obtain ⟨hbackends, hdisabled⟩ := ih (r.learn t)
    exact ⟨hbackends.trans (backends_remember r t.place t.available), hdisabled⟩

/-- **What an operation does to the settings** depends on the settings alone. -/
theorem Performed.settings [Host ω η] {w : ω} {op : Operation} {ms : List (Moment ω η)}
    (h : Performed r w op ms r') : r'.backends = r.backends ++ op.added ∧
      ∀ other, r'.Excludes other ↔ r.Excludes other ∨ op.Excludes r.names other := by
  have hkept : op.added = [] → (∀ other, ¬ op.Excludes r.names other) →
      r'.backends = r.backends → r'.disabled = r.disabled →
      r'.backends = r.backends ++ op.added ∧
        ∀ other, r'.Excludes other ↔ r.Excludes other ∨ op.Excludes r.names other := by
    intro hadded hexcludes hbackends hdisabled
    refine ⟨by rw [hbackends, hadded, List.append_nil], fun other => ?_⟩
    rw [Registry.Excludes, hdisabled]
    exact (or_iff_left (hexcludes other)).symm
  cases h with
  | @selected _ ts =>
    obtain ⟨hbackends, hdisabled⟩ := foldl_learn_settings ts r
    exact hkept rfl (fun _ => id) hbackends hdisabled
  | rechecked => exact hkept rfl (fun _ => id) (backends_remember r _ _) rfl
  | unknown => exact hkept rfl (fun _ => id) rfl rfl
  | forgotten => exact hkept rfl (fun _ => id) (List.map_map ..) rfl
  | disabled name =>
    obtain ⟨names, heq⟩ := exists_disable_eq r name
    refine ⟨?_, fun other => excludes_disable r name other⟩
    rw [heq]
    exact (List.append_nil _).symm
  | restricted hrestrict =>
    refine ⟨?_, fun other => ?_⟩
    · obtain ⟨names, rfl⟩ := exists_restrictTo_eq hrestrict
      exact (List.append_nil _).symm
    · rw [excludes_restrictTo hrestrict, Operation.Excludes,
        and_iff_right (exists_of_restrictTo hrestrict)]
  | refused hrestrict =>
    refine hkept rfl ?_ rfl rfl
    rintro other ⟨⟨b, hb, hsame⟩, -⟩
    rw [(restrictTo_eq_error_iff.mp hrestrict).1 b hb] at hsame
    cases hsame
  | registered b => exact ⟨List.map_append .., fun other => (or_iff_left id).symm⟩

/-! ### A restricted registry -/

/-- A registry `r`, and one that is like it for the backends of a name and excludes those of other
names that come first. -/
structure Narrowed (name : String) (first : List Backend) (r q : Registry) : Prop where
  backends : q.backends = r.backends
  isPrefix : first <+: q.backends
  named : ∀ other, sameName name other = true → (q.Excludes other ↔ r.Excludes other)
  others : ∀ b ∈ first, sameName name b.name = false → q.Excludes b.name

theorem sameName_of_sameName {a b : String} (h : sameName name a = true)
    (hb : sameName b a = true) : sameName name b = true :=
  sameName_iff.mpr ((sameName_iff.mp h).trans (sameName_iff.mp hb).symm)

/-- **A restriction** is one to all backends there are. -/
theorem narrowed_restrictTo (h : r.restrictTo name = .ok q) : Narrowed name r.backends r q where
  backends := by
    obtain ⟨names, rfl⟩ := exists_restrictTo_eq h
    rfl
  isPrefix := by
    obtain ⟨names, rfl⟩ := exists_restrictTo_eq h
    exact List.prefix_refl _
  named other hsame := by
    rw [excludes_restrictTo h]
    refine or_iff_left ?_
    rintro ⟨b, -, hother, hb⟩
    rw [sameName_of_sameName hsame hb] at hother
    cases hother
  others b hb hother := by
    rw [excludes_restrictTo h]
    refine .inr ⟨b.name, ?_, hother, sameName_iff.mpr rfl⟩
    rw [names_eq]
    exact List.mem_map_of_mem hb

/-- One operation on both. -/
theorem Narrowed.performed [Host ω η] {first : List Backend} {w w' : ω} {op : Operation}
    {ms ms' : List (Moment ω η)} (h : Narrowed name first r q) (hr : Performed r w op ms r')
    (hq : Performed q w' op ms' q') : Narrowed name first r' q' := by
  obtain ⟨hrbackends, hrexcludes⟩ := hr.settings
  obtain ⟨hqbackends, hqexcludes⟩ := hq.settings
  have hnames : q.names = r.names := by rw [names_eq, names_eq, h.backends]
  constructor
  · rw [hqbackends, hrbackends, h.backends]
  · rw [hqbackends]
    exact h.isPrefix.trans (List.prefix_append _ _)
  · intro other hsame
    rw [hqexcludes, hrexcludes, h.named other hsame, hnames]
  · intro b hb hother
    exact (hqexcludes b.name).mpr (.inl (h.others b hb hother))

/-- The same operations on both, whatever host each of them meets. -/
theorem Narrowed.after [Host ω η] {first : List Backend} (h : Narrowed name first r q)
    (ops : List (ω × Operation)) : Narrowed name first (r.after ops) (q.after ops) := by
  induction ops generalizing r q with
  | nil => exact h
  | cons op ops ih =>
    obtain ⟨ms, r', hr, hrest⟩ := after_cons (η := η) r op.1 op.2 ops
    obtain ⟨ms', q', hq, hqest⟩ := after_cons (η := η) q op.1 op.2 ops
    rw [hrest, hqest]
    exact ih (h.performed hr hq)

/-- A trial of a backend that is excluded. -/
theorem Tried.of_excludes [Host ω η] {request : ExecRequest} {w : ω} {t : Trial ω η}
    (h : Tried r request w t) (hexcludes : r.Excludes t.backend.name) :
    t.outcome = .error .disabled ∧ t.calls = [] := by
  cases h with
  | disabled => exact ⟨rfl, rfl⟩
  | foreign _ hname | unavailable _ hname | failed _ hname | started _ hname =>
    exact absurd hexcludes hname

/-- The backend of a candidate whose place is among the first ones. -/
theorem Tried.mem_first [Host ω η] {request : ExecRequest} {w : ω} {t : Trial ω η}
    {first : List Backend} (h : Tried r request w t) (hfirst : first <+: r.backends)
    (hplace : t.place < first.length) : t.backend ∈ first := by
  obtain ⟨e, he, hbackend⟩ := h.exists_registration
  have hget : r.backends[t.place]? = some t.backend := by
    rw [backends, List.getElem?_map, he, ← hbackend]
    rfl
  obtain ⟨more, hmore⟩ := hfirst
  rw [← hmore, List.getElem?_append_left hplace] at hget
  exact List.mem_of_getElem? hget

/-- Every candidate of a walk was tried. -/
theorem Walk.exists_tried [Host ω η] {request : ExecRequest} {w w' : ω} {ts : List (Trial ω η)}
    (h : Walk r request w ts w') : ∀ t ∈ ts, ∃ w, Tried r request w t := by
  induction h with
  | nil => nofun
  | cons ht _ ih => exact List.forall_mem_cons.mpr ⟨⟨_, ht⟩, ih⟩

/-! ### Later selections -/

/-- **A restriction holds for every later selection.**  For every registry and name:

* restricting to the name fails exactly if no backend has it, up to the case of ASCII letters, and
  then the registry is left alone;
* if it succeeds, let any operations follow, and then a selection.  A candidate that was there at
  the restriction and has another name is recorded as disabled when it is reached, and the host is
  asked nothing about it.  What can come of a candidate with the name, from any host, is just what
  could come of it with the settings that there would be without the restriction. -/
theorem restricts_to_the_named [Host ω η] (r : Registry) (name : String) :
    ((∃ e, r.restrictTo name = .error e) ↔ ∀ other ∈ r.names, sameName name other = false) ∧
      (∀ e, r.restrictTo name = .error e → e = .config (.unknownBackend name) ∧
        ∀ w : ω, r.perform (η := η) (.restrict name) w = ((r, .refused e), w)) ∧
      ∀ q, r.restrictTo name = .ok q →
        (∀ w : ω, r.perform (η := η) (.restrict name) w = ((q, .done), w)) ∧
        ∀ (ops : List (ω × Operation)) (request : ExecRequest) (w : ω),
          (∃ (ts : List (Trial ω η)) (w' : ω) (result : Except Error (Running η)),
            Walk (q.after ops) request w ts w' ∧ Chosen (q.after ops).ranking ts result ∧
            Host.Yields ((q.after ops).select request) w (ts.foldl learn (q.after ops), result)
              (ts.flatMap Trial.calls) w' ∧
            ∀ t ∈ ts, t.place < r.registrations.length → sameName name t.backend.name = false →
              t.outcome = .error .disabled ∧ t.calls = []) ∧
          ∀ t : Trial ω η, sameName name t.backend.name = true →
            (Tried (q.after ops) request w t ↔
              Tried { q.after ops with disabled := (r.after ops).disabled } request w t) := by
  refine ⟨?_, ?_, ?_⟩
  · constructor
    · rintro ⟨e, he⟩
      exact (restrictTo_eq_error_iff.mp he).1
    · intro hnone
      exact ⟨_, restrictTo_eq_error_iff.mpr ⟨hnone, rfl⟩⟩
  · intro e he
    refine ⟨(restrictTo_eq_error_iff.mp he).2, fun w => ?_⟩
    simp only [perform, he]
    rfl
  · intro q hq
    refine ⟨fun w => ?_, fun ops request w => ⟨?_, fun t hname => ?_⟩⟩
    · simp only [perform, hq]
      rfl
    · obtain ⟨ts, w', result, hwalk, hchosen, hyields⟩ :=
        exists_selected (η := η) (q.after ops) request w
      refine ⟨ts, w', result, hwalk, hchosen, hyields, fun t ht hplace hother => ?_⟩
      obtain ⟨w, htried⟩ := hwalk.exists_tried t ht
      have hnarrowed := (narrowed_restrictTo hq).after ops
      refine htried.of_excludes (hnarrowed.others _ (htried.mem_first hnarrowed.isPrefix ?_) hother)
      rwa [backends, List.length_map]
    · have hnarrowed := (narrowed_restrictTo hq).after ops
      constructor
      · intro h
        exact h.congr_name rfl (hnarrowed.named _ hname) rfl
      · intro h
        exact h.congr_name rfl (hnarrowed.named _ hname).symm rfl

/-- Of two backends, the better one is reached first, but the name of the other was given, though in
other letters. -/
theorem restricts_to_the_named_recased :
    ∃ q, (ofBackends .linux [⟨"native", .nativePty, [.linux], .full⟩,
        ⟨"pipes", .subprocess, [.linux], .full⟩]).restrictTo "Pipes" = .ok q ∧
      ∀ w : Scripted, ∃ (t : Trial Scripted Nat) (ts : List (Trial Scripted Nat)) (w' : Scripted),
        Walk q { command := "sh" } w (t :: ts) w' ∧ t.backend.name = "native" ∧
        t.outcome = .error .disabled ∧ t.calls = [] := by
  obtain ⟨q, hq⟩ : ∃ q, (ofBackends .linux [⟨"native", .nativePty, [.linux], .full⟩,
      ⟨"pipes", .subprocess, [.linux], .full⟩]).restrictTo "Pipes" = .ok q := ⟨_, rfl⟩
  refine ⟨q, hq, fun w => ?_⟩
  obtain ⟨-, -, hlater⟩ := restricts_to_the_named (ω := Scripted) _ "Pipes"
  obtain ⟨⟨ts, w', result, hwalk, hchosen, -, hothers⟩, -⟩ :=
    (hlater q hq).2 [] { command := "sh" } w
  change Walk q _ w ts w' at hwalk
  change Chosen q.ranking ts result at hchosen
  have hranking : q.ranking = [0, 1] := by
    cases hq
    rfl
  rw [hranking] at hchosen
  obtain ⟨t, ts, rfl, hplace⟩ := hchosen.exists_cons
  obtain ⟨w₀, htried⟩ := hwalk.exists_tried t List.mem_cons_self
  obtain ⟨e, he, hbackend⟩ := htried.exists_registration
  have hname : t.backend.name = "native" := by
    rw [hplace] at he
    cases hq
    cases he
    rw [← hbackend]
  have hdisabled := hothers t List.mem_cons_self (by rw [hplace]; decide) (by rw [hname]; decide)
  exact ⟨t, ts, w', hwalk, hname, hdisabled⟩

end VirtualTerminal.Registry

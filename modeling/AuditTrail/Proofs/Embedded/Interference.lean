import AuditTrail.Proofs.Embedded.Isolation

/-! Requests on different projects do not interfere with each other, in sessions as they are: neither
with what is answered nor with what is stored, and the order in which they come does not matter. -/
namespace AuditTrail.Embedded

/-- Contents with the same rows in each table, apart from the numbers of partitions. -/
structure SameRows (c d : Content) : Prop where
  projects : (c.projects.map Row.projectCells).Perm (d.projects.map Row.projectCells)
  records : c.records.Perm d.records
  changes : c.changes.Perm d.changes

/-- Two lists are the same but for their order if that is so of two shares and of the rest. -/
theorem perm_of_shares {β : Type} (f : Row → β) {p q : Row → Bool} {rows rows' : List Row}
    (first : ((rows.filter p).map f).Perm ((rows'.filter p).map f))
    (second : ((rows.filter q).map f).Perm ((rows'.filter q).map f))
    (apart : ∀ row, q row = true → p row = false)
    (rest : rows.filter (fun row => !p row && !q row) = rows'.filter fun row => !p row && !q row) :
    (rows.map f).Perm (rows'.map f) := by
  have parts (l : List Row) : ((l.filter p).map f ++ ((l.filter q).map f
      ++ (l.filter fun row => !p row && !q row).map f)).Perm (l.map f) := by
    have inside : (l.filter (!p ·)).filter q = l.filter q :=
      filter_filter_of_imp l fun row own => by rw [apart row own]; rfl
    have outside : (l.filter (!p ·)).filter (!q ·) = l.filter fun row => !p row && !q row := by
      rw [List.filter_filter]
      exact List.filter_congr fun row _ => Bool.and_comm _ _
    have others := List.filter_append_perm q (l.filter (!p ·))
    rw [inside, outside] at others
    have whole := ((others.append_left (l.filter p)).trans (List.filter_append_perm p l)).map f
    rwa [List.map_append, List.map_append] at whole
  refine (parts rows).symm.trans (.trans ?_ (parts rows'))
  rw [rest]
  exact first.append (second.append_right _)

variable {c d : Content} {p q : Id} {a b : Request}

theorem SameFor.projectCells_perm (same : SameFor p c d) (left : c.Keyed) (right : d.Keyed) :
    ((c.projects.filter (Row.isProject p)).map Row.projectCells).Perm
      ((d.projects.filter (Row.isProject p)).map Row.projectCells) := by
  rw [left.filter_isProject, right.filter_isProject, ← Option.toList_map, ← Option.toList_map,
    same.project]

theorem sameRows_of_shares (left : c.Keyed) (right : d.Keyed) (sameP : SameFor p c d)
    (sameQ : SameFor q c d) (other : p ≠ q)
    (rest : ∀ t, (c.rows t).filter (fun row => !shareOf p t row && !shareOf q t row)
      = (d.rows t).filter fun row => !shareOf p t row && !shareOf q t row) : SameRows c d := by
  have apart (t : Table) (row : Row) (own : shareOf q t row = true) : shareOf p t row = false :=
    Bool.eq_false_iff.mpr fun own' => other (Content.shareOf_unique own' own)
  refine ⟨?_, ?_, ?_⟩
  · exact perm_of_shares Row.projectCells (sameP.projectCells_perm left right)
      (sameQ.projectCells_perm left right) (apart .projects) (rest .projects)
  · have records := perm_of_shares id (sameP.records.map id) (sameQ.records.map id)
      (apart .records) (rest .records)
    rwa [List.map_id, List.map_id] at records
  · have changes := perm_of_shares id (sameP.changes.map id) (sameQ.changes.map id)
      (apart .changes) (rest .changes)
    rwa [List.map_id, List.map_id] at changes

/-- Requests on different projects get the same replies in either order, and leave the same rows. -/
theorem Content.Keyed.commute (keyed : c.Keyed) (onP : IsOn p a) (onQ : IsOn q b) (other : p ≠ q) :
    (c.after b).reply a = c.reply a ∧ (c.after a).reply b = c.reply b ∧
      SameRows ((c.after a).after b) ((c.after b).after a) := by
  have left := (c.sameFor_after onQ (Ne.symm other)).reply_after keyed onP
  have right := (c.sameFor_after onP other).reply_after keyed onQ
  refine ⟨left.1.symm, right.1.symm, ?_⟩
  have sameP := ((c.after a).sameFor_after onQ (Ne.symm other)).symm.trans left.2
  have sameQ := right.2.symm.trans ((c.after b).sameFor_after onP other)
  -- The rows of neither project are left alone by both requests.
  have rest (t : Table) : let pick := fun row => !shareOf p t row && !shareOf q t row
      (((c.after a).after b).rows t).filter pick = (((c.after b).after a).rows t).filter pick := by
    intro pick
    have outsideP (row : Row) (picked : pick row = true) : shareOf p t row = false := by
      simpa using (Bool.and_eq_true_iff.mp picked).1
    have outsideQ (row : Row) (picked : pick row = true) : shareOf q t row = false := by
      simpa using (Bool.and_eq_true_iff.mp picked).2
    rw [(c.after a).filter_after onQ t outsideQ, c.filter_after onP t outsideP,
      (c.after b).filter_after onP t outsideP, c.filter_after onQ t outsideQ]
  exact sameRows_of_shares ((keyed.after a).after b) ((keyed.after b).after a) sameP sameQ other rest

/-- A session that nobody disturbs, with the tables of a store in which keys are unique. -/
structure Session.Stores (s : Session) : Prop where
  serves : s.Serves s.content
  keyed : s.content.Keyed

theorem Reachable.stores {s : Session} (reached : Reachable s) : s.Stores :=
  ⟨reached.serves, reached.sound.keyed⟩

theorem Session.Stores.after {s : Session} (stores : s.Stores) (r : Request) : (s.after r).Stores := by
  have served := stores.serves.after r
  have led := served.content
  constructor
  · rwa [led]
  · rw [led]
    exact stores.keyed.after r

/-- What is asked on a project comes to the same in any two states in which the project has the same
share, leaves the shares of other projects alone, and can be asked before or after what is asked on
another project. -/
theorem projects_do_not_interfere {s t : Session} (left : s.Stores) (right : t.Stores) :
    (∀ owner r, IsOn owner r → SameFor owner s.content t.content →
      s.reply r = t.reply r ∧ SameFor owner (s.after r).content (t.after r).content) ∧
    (∀ p owner r, IsOn p r → p ≠ owner → SameFor owner s.content (s.after r).content) ∧
    ∀ p q a b, IsOn p a → IsOn q b → p ≠ q →
      (s.after b).reply a = s.reply a ∧ (s.after a).reply b = s.reply b ∧
        SameRows ((s.after a).after b).content ((s.after b).after a).content := by
  refine ⟨?_, ?_, ?_⟩
  · intro owner r on same
    rw [left.serves.reply, right.serves.reply, (left.serves.after r).content,
      (right.serves.after r).content]
    exact same.reply_after left.keyed on
  · intro p owner r on other
    rw [(left.serves.after r).content]
    exact s.content.sameFor_after on other
  · intro p q a b onP onQ other
    have afterA := left.serves.after a
    have afterB := left.serves.after b
    rw [afterA.reply, afterB.reply, left.serves.reply, left.serves.reply, (afterA.after b).content,
      (afterB.after a).content]
    exact left.keyed.commute onP onQ other

theorem projects_do_not_interfere_default :
    let alone := (Session.opened .default).after (.createProject default)
    let both := (alone.after (.createProject { (default : Project) with id := .ofNat 1 })).after
      (.createRecords [{ (default : Record) with project := .ofNat 1 }])
    let mine := Request.createRecords [default]
    let other := Request.dropProject (.ofNat 1)
    (both.reply mine = alone.reply mine ∧
        SameFor default (both.after mine).content (alone.after mine).content) ∧
      SameFor default both.content (both.after other).content ∧
      SameRows ((both.after mine).after other).content ((both.after other).after mine).content := by
  intro alone both mine other
  have started : Reachable alone := .answered _ (.opened true (openStore_empty .default))
  have reached : Reachable both := .answered _ (.answered _ started)
  have same : SameFor default both.content alone.content :=
    ⟨by decide +kernel, by decide +kernel, by decide +kernel⟩
  have onMine : IsOn default mine := by
    rintro r ⟨⟩
    rfl
  have apart : Id.ofNat 1 ≠ default := by decide
  obtain ⟨answered, kept, commute⟩ := projects_do_not_interfere reached.stores started.stores
  exact ⟨answered default mine onMine same, kept _ default other rfl apart,
    (commute default (.ofNat 1) mine other onMine rfl apart.symm).2.2⟩

end AuditTrail.Embedded

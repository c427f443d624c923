import AuditTrail.Proofs.Embedded.ProjectListing
import AuditTrail.Proofs.Embedded.Walk
import Mathlib.Data.List.Nodup

/-! Walks through all projects, while others create, change and drop projects. Cursors ask for
smaller identifiers only, so a walk goes down whatever happens behind it or ahead of it, and it
cannot miss a project that is there whenever it asks. -/
namespace AuditTrail.Embedded

namespace Content

variable {c : Content} {gaps : Nat → List Request}

/-- The content at the n-th request of a walk, after the requests that others have made until then.
-/
def through (c : Content) (gaps : Nat → List Request) : Nat → Content
  | 0 => c
  | n + 1 => (gaps n).foldl after (c.through gaps n)

theorem Listable.through (listable : c.Listable)
    (created : ∀ n, ∀ r ∈ gaps n, ∀ p, r = .createProject p → p.createTime.Ordinary) (n : Nat) :
    (c.through gaps n).Listable := by
  induction n with
  | zero => exact listable
  | succ n ih =>
    exact List.foldlRecOn (motive := Listable) (gaps n) Content.after ih fun _ listable r mem =>
      listable.after (created n r mem)

theorem lists_projects {view : Row → Project}
    (shows : ∀ row ∈ c.projects, row.ShowsProject (view row)) (limit : Nat) :
    (projectPaging limit).Lists .projects limit (fun _ => True) (fun _ => True) c
      (c.listedProjects.map view) where
  reply := fun cursor _ _ => reply_listProjects shows limit cursor
  refused := fun _ _ refused => absurd trivial refused
  sound := fun _ _ => trivial

end Content

section
variable {limit : Nat} {listing : Nat → List Project} {pages : List (List Project)}
  (cut : Keyset.projects.Pages limit listing .start pages)
  (sorted : ∀ n, (listing n).Pairwise Project.Precedes)
include cut sorted

theorem pairwise_ids_of_pages : (pages.flatten.map (·.id)).Pairwise fun i j => j < i :=
  List.pairwise_map.mpr (cut.pairwise sorted)

/-- A project that is listed each time is found once, though it may look different each time. -/
theorem count_ids_of_pages (positive : 0 < limit) {i : Id}
    (stays : ∀ n < pages.length, ∃ p ∈ listing n, p.id = i) :
    (pages.flatten.map (·.id)).count i = 1 := by
  have whole {a b : Project} : Keyset.projects.Precedes a b →
      Keyset.projects.admits (Keyset.projects.past a) b = true := ProjectCursor.admits_iff.mpr
  obtain ⟨p, mem, own⟩ := cut.exists_mem_of_stays positive whole sorted (P := fun p => p.id = i)
    (fun cursor a b ha hb => by simp [Keyset.projects, ProjectCursor.admits, ha, hb]) stays
    fun _ _ => rfl
  have distinct : (pages.flatten.map (·.id)).Nodup := by
    refine (pairwise_ids_of_pages cut sorted).imp fun {i j} less same => ?_
    rw [same] at less
    exact Nat.lt_irrefl _ less
  exact List.count_eq_one_of_mem distinct (List.mem_map.mpr ⟨p, mem, own⟩)
end

/-- If nothing changes then the pages are all projects, and the last page is not full. -/
theorem whole_pages {limit : Nat} {all : List Project} {pages : List (List Project)}
    (cut : Keyset.projects.Pages limit (fun _ => all) .start pages) (positive : 0 < limit)
    (sorted : all.Pairwise Project.Precedes) :
    pages.length = all.length / limit + 1 ∧ pages.flatten = all := by
  obtain ⟨flat, count⟩ := cut.flatten_eq positive ProjectCursor.admits_iff.mpr (fun _ => rfl) sorted
  have every : all.filter (Keyset.projects.admits .start) = all :=
    List.filter_eq_self.mpr fun p _ => Keyset.projects.admits_start p
  rw [every] at flat count
  exact ⟨count, flat⟩

/-- A walk through all projects ends whatever others do to them meanwhile. It goes down strictly,
and it gets each project that is there at all of its requests once. If nobody does anything it gets
all projects, in as many full pages as they fill and one page more. -/
theorem project_walk_is_stable {s : Session} (reached : Reachable s)
    (dated : ∀ row ∈ s.content.projects, row.Dated [.createTime]) {limit : Nat}
    (positive : 0 < limit) :
    (∀ gaps : Nat → List Request,
      (∀ n, ∀ r ∈ gaps n, ∀ p, r = .createProject p → p.createTime.Ordinary) →
        (∃ visits, (projectPaging limit).Walk gaps s "" visits) ∧
        ∀ visits, (projectPaging limit).Walk gaps s "" visits →
          ((visits.flatMap (·.2)).map (·.id)).Pairwise (fun i j => j < i) ∧
          ∀ i, (∀ v ∈ visits, v.1.content.hasProject i = true) →
            ((visits.flatMap (·.2)).map (·.id)).count i = 1) ∧
    ∃ all, s.HoldsProjects all ∧
      ∀ visits, (projectPaging limit).Walk (fun _ => []) s "" visits →
        visits.length = all.length / limit + 1 ∧ visits.flatMap (·.2) = all := by
  have listable : s.content.Listable := ⟨reached.sound, reached.valued, dated⟩
  have follows := projectPaging_follows limit
  refine ⟨fun gaps created => ?_, ?_⟩
  · have later := listable.through created
    choose view shows using fun n => (later n).valued.exists_project_view (later n).dated
    have lists := fun n => Content.lists_projects (shows n) limit
    have sorted := fun n => Content.sorted_projects (later n).sound.keyed (shows n)
    refine ⟨?_, fun visits walk => ?_⟩
    · obtain ⟨pages, cut⟩ := Keyset.projects.exists_pages limit (fun _ => _) .start
      exact Paging.exists_walk follows lists (fun _ => rfl) reached.serves rfl trivial cut trivial
        fun _ _ _ _ => trivial
    · obtain ⟨cut, met⟩ := walk.pages follows lists (fun _ => rfl) reached.serves rfl trivial
      rw [List.flatMap_def]
      refine ⟨pairwise_ids_of_pages cut sorted, fun i present => ?_⟩
      refine count_ids_of_pages cut sorted positive fun n less => ?_
      rw [List.length_map] at less
      have there := present _ (List.getElem_mem less)
      rw [met n _ (List.getElem?_eq_getElem less)] at there
      exact (Content.hasProject_iff_listed (shows n)).mp there
  · obtain ⟨view, shows⟩ := listable.valued.exists_project_view dated
    have lists := Content.lists_projects shows limit
    have holds := reached.holdsProjects shows
    refine ⟨_, holds, fun visits walk => ?_⟩
    obtain ⟨cut, -⟩ := walk.pages follows (fun _ => lists) (fun _ => rfl) reached.serves rfl trivial
    obtain ⟨count, flat⟩ := whole_pages cut positive holds.sorted
    rw [List.length_map] at count
    exact ⟨count, flat⟩

/-- After the first page a project before it and one that is still to come are dropped, and others
take their places. -/
theorem project_walk_is_stable_dropping :
    let p : Project := default
    let s := (((Session.opened .default).after (.createProject p)).after
      (.createProject { p with id := .ofNat 2 })).after (.createProject { p with id := .ofNat 4 })
    let gaps : Nat → List Request := fun _ =>
      [.dropProject (.ofNat 4), .dropProject (.ofNat 2), .createProject { p with id := .ofNat 5 },
        .updateProject p.id ⟨some "", none, none⟩, .createProject { p with id := .ofNat 1 }]
    ((∀ row ∈ s.content.projects, row.Dated [.createTime]) ∧ 0 < 1 ∧
      ∀ n, ∀ r ∈ gaps n, ∀ q, r = .createProject q → q.createTime.Ordinary) ∧
    (∃ visits, (projectPaging 1).Walk gaps s "" visits ∧
      ((visits.flatMap (·.2)).map (·.id)).Pairwise (fun i j => j < i) ∧
      ((∀ v ∈ visits, v.1.content.hasProject p.id = true) →
        ((visits.flatMap (·.2)).map (·.id)).count p.id = 1)) ∧
    ∃ all, s.HoldsProjects all ∧ ∀ visits, (projectPaging 1).Walk (fun _ => []) s "" visits →
      visits.length = all.length / 1 + 1 ∧ visits.flatMap (·.2) = all := by
  intro p s gaps
  have reached : Reachable s :=
    .answered _ (.answered _ (.answered _ (.opened true (openStore_empty .default))))
  have rows : s.content.projects = [Content.projectRow p 1,
      Content.projectRow { p with id := .ofNat 2 } 2,
      Content.projectRow { p with id := .ofNat 4 } 3] := by decide +kernel
  have epoch : p.createTime.Ordinary := by decide +kernel
  have dated : ∀ row ∈ s.content.projects, row.Dated [.createTime] := by
    intro row mem
    rw [rows] at mem
    simp only [List.mem_cons, List.not_mem_nil, or_false] at mem
    rcases mem with rfl | rfl | rfl <;> (refine Content.dated_projectRow ?_ _; exact epoch)
  have created : ∀ n, ∀ r ∈ gaps n, ∀ q, r = .createProject q → q.createTime.Ordinary := by
    rintro n _ mem q rfl
    simp only [gaps, List.mem_cons, List.not_mem_nil, or_false, Request.createProject.injEq,
      reduceCtorEq, false_or] at mem
    rcases mem with rfl | rfl <;> exact epoch
  obtain ⟨stable, whole⟩ := project_walk_is_stable reached dated Nat.one_pos
  obtain ⟨⟨visits, walk⟩, sound⟩ := stable gaps created
  obtain ⟨sorted, once⟩ := sound visits walk
  exact ⟨⟨dated, Nat.one_pos, created⟩, ⟨visits, walk, sorted, once p.id⟩, whole⟩

end AuditTrail.Embedded

import Mathlib.Data.List.Perm.Basic
import Clash.Tun.Kernel

/-!
# Changing the routes of the kernel

What the requests of a session do to the routes, up to their order.

## Main definitions

* `Has`: the links of a kernel, and its routes in any order.
* `linkRoutes`: the routes that a link with an address brings along.

## Main results

* `Has.newRoute`, `Has.delRoute`: a new route, and the removal of the only match.
* `Has.tunsetiff`, `Has.newAddr`, `Has.changeUp`, `Has.delLink`: the life of a link.
-/

open CString Inet Memory Rtnetlink Netlink

namespace Kernel

variable {pol : Policy} {k : State} {r : Route} {rs rest : List Route}

/-! ## Lists of routes -/

theorem insert_perm (rs : List Route) (r : Route) : (insert pol rs r).Perm (r :: rs) := by
  rw [insert]
  refine List.perm_middle.trans ?_
  rw [List.take_append_drop]

theorem insertAll_perm (rs xs : List Route) : (insertAll pol rs xs).Perm (xs ++ rs) := by
  induction xs generalizing rs with
  | nil => exact .refl _
  | cons x xs ih =>
    exact (ih _).trans (((insert_perm rs x).append_left xs).trans List.perm_middle)

/-- The removal of the only match. -/
theorem eraseP_perm {p : Route → Bool} (h : rs.Perm (r :: rest)) (hr : p r = true)
    (hrest : ∀ r' ∈ rest, p r' = false) : (rs.eraseP p).Perm rest := by
  have hpairwise : (r :: rest).Pairwise fun a b => p a → p b → False := by
    refine List.pairwise_cons.mpr ⟨fun b hb _ hpb => ?_, List.pairwise_of_forall_mem_list ?_⟩
    · simp [hrest b hb] at hpb
    · intro a ha b _ hpa
      simp [hrest a ha] at hpa
  have herase := List.Perm.eraseP p hpairwise h.symm
  rw [List.eraseP_cons_of_pos hr] at herase
  exact herase.symm

/-- The links of a kernel, how many it has created, and its routes in any order. -/
structure Has (k : State) (links : List Link) (created : ℕ) (rs : List Route) : Prop where
  links : k.links = links
  created : k.created = created
  routes : k.routes.Perm rs

variable {links : List Link} {created : ℕ}

theorem Has.perm {rs' : List Route} (h : Has k links created rs) (hrs : rs.Perm rs') :
    Has k links created rs' := ⟨h.links, h.created, h.routes.trans hrs⟩

/-! ## Requests about routes -/

/-- The route that a request adds. -/
def requested (rtm : Rtmsg) (as : List (ℕ × List UInt8)) : Route where
  rtm := rtm
  attrs := (rtaTable, le32 rtm.table.toNat) :: as

variable {rtm : Rtmsg} {as : List (ℕ × List UInt8)}

theorem Has.newRoute (h : Has k links created rs)
    (hnew : ∀ r ∈ rs, ¬ SameRoute r (requested rtm as)) :
    ∃ k', newRoute pol k rtm as = .ok k' ∧ Has k' links created (requested rtm as :: rs) := by
  have hnone : ¬ ∃ r ∈ k.routes, SameRoute r (requested rtm as) :=
    fun ⟨r, hr, hsame⟩ => hnew r (h.routes.mem_iff.mp hr) hsame
  refine ⟨_, if_neg hnone, h.links, h.created, ?_⟩
  exact (insert_perm _ _).trans (h.routes.cons _)

theorem Has.delRoute (h : Has k links created (r :: rest)) (hr : Matches rtm as r)
    (hrest : ∀ r' ∈ rest, ¬ Matches rtm as r') :
    ∃ k', delRoute k rtm as = .ok k' ∧ Has k' links created rest := by
  have hsome : ∃ r ∈ k.routes, Matches rtm as r :=
    ⟨r, h.routes.mem_iff.mpr List.mem_cons_self, hr⟩
  refine ⟨_, if_pos hsome, h.links, h.created, eraseP_perm h.routes (by simpa using hr) ?_⟩
  intro r' hr'
  simpa using hrest r' hr'

/-! ## The TUN link -/

variable {l : Link}

/-- Another link has neither this name nor this index. -/
structure Fresh (links : List Link) (name : CString) (index : ℕ) : Prop where
  name : ∀ l ∈ links, l.name ≠ name
  index : ∀ l ∈ links, l.index ≠ index

theorem find_name (h : Fresh links l.name l.index) :
    (links ++ [l]).find? (fun l' => l'.name = l.name) = some l := by
  rw [List.find?_append, List.find?_eq_none.mpr (by simpa using h.name)]
  simp

theorem find_index (h : Fresh links l.name l.index) :
    (links ++ [l]).find? (fun l' => l'.index = l.index) = some l := by
  rw [List.find?_append, List.find?_eq_none.mpr (by simpa using h.index)]
  simp

theorem ifNametoindex_last (h : Fresh links l.name l.index) (hk : k.links = links ++ [l]) :
    ifNametoindex k l.name = l.index := by
  rw [ifNametoindex, hk, find_name h]

/-- A new link does not hide another one. -/
theorem ifNametoindex_append {k₀ : State} {ls : List Link} {name : CString}
    (hk : k.links = k₀.links ++ ls) (hpos : 0 < ifNametoindex k₀ name) :
    ifNametoindex k name = ifNametoindex k₀ name := by
  unfold ifNametoindex at hpos ⊢
  rw [hk, List.find?_append]
  cases hfind : k₀.links.find? fun l => l.name = name with
  | none =>
    rw [hfind] at hpos
    exact absurd hpos (lt_irrefl 0)
  | some l => rfl

theorem setLink_last (h : Fresh links l.name l.index) (hk : k.links = links ++ [l])
    (f : Link → Link) : (setLink k l.index f).links = links ++ [f l] := by
  have hlinks : links.map (fun l' => if l'.index = l.index then f l' else l') = links :=
    (List.map_congr_left fun l' hl' => if_neg (h.index l' hl')).trans (List.map_id _)
  rw [setLink]
  dsimp only
  rw [hk, List.map_append, hlinks]
  simp

/-- The routes that a link with an address brings along. -/
def linkRoutes (pol : Policy) (index : ℕ) (a : List UInt8 × UInt8) : List Route :=
  upRoutes pol index a ++ pol.localRoutes index a

variable {name : CString} {index : ℕ} {a : List UInt8 × UInt8}

/-- `TUNSETIFF` appends a link that is down. -/
theorem Has.tunsetiff (pol : Policy) (h : Has k links created rs)
    (hname : ∀ l ∈ links, l.name ≠ name) :
    ∃ k', tunsetiff pol k name = some k' ∧
      Has k' (links ++ [⟨name, pol.newIndex created, false, []⟩]) (created + 1) rs := by
  obtain ⟨rfl, rfl, hroutes⟩ := h
  exact ⟨_, if_neg fun ⟨l, hl, h⟩ => hname l hl h, rfl, rfl, hroutes⟩

/-- The first address of a link that is down. -/
theorem Has.newAddr (pol : Policy) (hfresh : Fresh links name index)
    (h : Has k (links ++ [⟨name, index, false, []⟩]) created rs) :
    ∃ k', newAddr pol k index a = .ok k' ∧
      Has k' (links ++ [⟨name, index, false, [a]⟩]) created (pol.localRoutes index a ++ rs) := by
  have hfind : k.links.find? (fun l => l.index = index) = some ⟨name, index, false, []⟩ := by
    rw [h.links]
    exact find_index (l := ⟨name, index, false, []⟩) hfresh
  rw [Kernel.newAddr, hfind]
  refine ⟨_, if_neg List.not_mem_nil, setLink_last hfresh h.links _, h.created, ?_⟩
  refine (insertAll_perm _ _).trans ?_
  rw [if_neg Bool.false_ne_true, List.append_nil]
  exact h.routes.append_left _

/-- A link that goes up is connected to the network of its address. -/
theorem Has.changeUp_true (pol : Policy) (hfresh : Fresh links name index)
    (h : Has k (links ++ [⟨name, index, false, [a]⟩]) created rs) :
    ∃ k', changeUp pol k index true = .ok k' ∧
      Has k' (links ++ [⟨name, index, true, [a]⟩]) created (upRoutes pol index a ++ rs) := by
  have hfind : k.links.find? (fun l => l.index = index) = some ⟨name, index, false, [a]⟩ := by
    rw [h.links]
    exact find_index (l := ⟨name, index, false, [a]⟩) hfresh
  rw [changeUp, hfind]
  refine ⟨_, if_pos ⟨rfl, Bool.false_ne_true⟩, setLink_last hfresh h.links _, h.created, ?_⟩
  refine (insertAll_perm _ _).trans ?_
  rw [List.flatMap_singleton]
  exact h.routes.append_left _

/-- A link that goes down loses its routes. -/
theorem Has.changeUp_false (pol : Policy) (hfresh : Fresh links name index)
    (h : Has k (links ++ [⟨name, index, true, [a]⟩]) created rs) :
    ∃ k', changeUp pol k index false = .ok k' ∧
      Has k' (links ++ [⟨name, index, false, [a]⟩]) created (withoutLink index rs) := by
  have hfind : k.links.find? (fun l => l.index = index) = some ⟨name, index, true, [a]⟩ := by
    rw [h.links]
    exact find_index (l := ⟨name, index, true, [a]⟩) hfresh
  rw [changeUp, hfind]
  exact ⟨_, rfl, setLink_last hfresh h.links _, h.created, h.routes.filter _⟩

/-- The last link is deleted. -/
theorem Has.delLink {up : Bool} (hfresh : Fresh links name index)
    (h : Has k (links ++ [⟨name, index, up, [a]⟩]) created rs) :
    ∃ k', delLink k name = .ok k' ∧ Has k' links created (withoutLink index rs) := by
  have hfind : k.links.find? (fun l => l.name = name) = some ⟨name, index, up, [a]⟩ := by
    rw [h.links]
    exact find_name (l := ⟨name, index, up, [a]⟩) hfresh
  rw [Kernel.delLink, hfind]
  refine ⟨_, rfl, ?_, h.created, h.routes.filter _⟩
  dsimp only
  rw [h.links, List.filter_append, List.filter_eq_self.mpr (by simpa using hfresh.name)]
  simp

/-- All routes that a link brings along go to the link, and in the main table they are networks. -/
theorem linkRoutes_spec {r : Route} (hr : r ∈ linkRoutes pol index a) :
    r.oif = some (le32 index) ∧ (r.rtm.table = rtTableMain → r.rtm.dstLen = a.2) := by
  rw [linkRoutes, upRoutes, List.cons_append, List.mem_cons] at hr
  obtain rfl | hr := hr
  · exact ⟨rfl, fun _ => rfl⟩
  · have hmem : r ∈ pol.localRoutes index a ++ pol.broadcastRoutes index a :=
      List.perm_append_comm.mem_iff.mp hr
    obtain ⟨htable, hoif⟩ := pol.localRoutes_spec index a r hmem
    exact ⟨hoif, fun h => absurd h htable⟩

/-- Without a link, only the routes that it brought along are gone. -/
theorem withoutLink_append {L : List Route} (hL : ∀ r ∈ L, r.oif = some (le32 index))
    (hrest : ∀ r ∈ rest, r.oif ≠ some (le32 index)) : withoutLink index (L ++ rest) = rest := by
  rw [withoutLink, List.filter_append, List.filter_eq_nil_iff.mpr (by simpa using hL),
    List.filter_eq_self.mpr (by simpa using hrest)]
  rfl

end Kernel

import RestApi.History

namespace RestApi
open Pool Program RowStore

variable {cfg : Config} {owes : Request → View → Cmd → Prop}
  {ends : Request → View → Except Err Value → Prop}

-- Any further contract, as long as every request keeps to it when it is alone
-- with its own view of the world.
theorem contract_sound
    (code : ∀ request, Meets (Local cfg) (owes request) (ends request) (serve cfg request)
      ⟨some request,none,[],none⟩) :
    Sound (api cfg) (fun _ _ => True) WorldValid World.view (Local cfg)
      (fun v c => ∃ request, v.request = some request ∧ owes request v c)
      fun v result => ∃ request, v.request = some request ∧ ends request v result where
  accepts valid accepted := by
    refine ⟨accept_valid valid accepted,?_,fun other different => accept_frame accepted different⟩
    rw [accept_view valid accepted]
    refine meets_mono ?_ ?_ (meets_stable (fun v => v.request = some _)
      (fun _ _ _ _ _ stepped known => (local_request stepped).trans known) rfl (code _))
    · exact fun v c owed => ⟨_,owed.1,owed.2⟩
    · exact fun v result held => ⟨_,held.1,held.2⟩
  executes := by
    intro s pid c next choice after reply valid _ owed _ ran
    obtain ⟨request,asked,_⟩ := owed
    have known : s.shared.requests pid ≠ none := by
      rw [show s.shared.requests pid = some request from asked]
      exact Option.some_ne_none request
    exact ⟨executed_valid valid known (exec_executed ran),executed_local valid (exec_executed ran),
      fun other different => executed_frame (exec_executed ran) different⟩
  abandons pid valid := ⟨abandon_valid valid pid,fun other different => abandon_frame _ different⟩
  environs valid _ ran := ⟨surroundings_valid valid ran,surroundings_view ran⟩

-- What a goroutine owes at the command it is about to issue.
theorem reached_owes {base : List Row} {s : Api} {c : Cmd} {next : Reply c → Service Value}
    (code : ∀ request, Meets (Local cfg) (owes request) (ends request) (serve cfg request)
      ⟨some request,none,[],none⟩) (keyed : schema.Keyed base) (apart : schema.Apart base)
    (path : Reached (api cfg) allow (boot base serial uuids now) s)
    (here : s.threads pid = some (.call c next)) :
    ∃ request, s.shared.requests pid = some request ∧ owes request (s.shared.view pid) c := by
  obtain ⟨_,meets⟩ := reached_kept (contract_sound code) (start_valid keyed apart) (fun _ => rfl)
    (path.mono fun _ _ _ => trivial)
  exact meets_duty (meets pid _ here)

theorem reached_ends {base : List Row} {s : Api} {value : Value}
    (code : ∀ request, Meets (Local cfg) (owes request) (ends request) (serve cfg request)
      ⟨some request,none,[],none⟩) (keyed : schema.Keyed base) (apart : schema.Apart base)
    (path : Reached (api cfg) allow (boot base serial uuids now) s)
    (here : s.threads pid = some (.done value)) :
    ∃ request, s.shared.requests pid = some request ∧
      ends request (s.shared.view pid) (.ok value) := by
  obtain ⟨_,meets⟩ := reached_kept (contract_sound code) (start_valid keyed apart) (fun _ => rfl)
    (path.mono fun _ _ _ => trivial)
  exact meets pid _ here

end RestApi

import ObcSdk.Boot.Bench
/-!
# The environment's step, taken twice

`am62x_board_env_init` compares each variable with the value it is to have
and saves the environment where one has another. A second run finds
everything as the first one left it, but for `ipaddr`: what is set is not
what is looked for, so an environment that does not have it from the start
is saved on every boot.
-/

namespace ObcSdk

namespace Boot

section Environment

variable {w : World} {s : World × Bool} {name name' want set : String}

/-! ## One variable -/

variable (name) in
theorem envEnsure_of_eq (h : s.1.env name = some want) : envEnsure name want set s = s := by
  rw [envEnsure, if_pos h]

theorem envEnsure_of_ne (h : s.1.env name ≠ some want) :
    envEnsure name want set s = (s.1.envSet name set, true) := by
  rw [envEnsure, if_neg h]

/-- The others stay. -/
@[simp] theorem envEnsure_env_of_ne (h : name' ≠ name) :
    (envEnsure name want set s).1.env name' = s.1.env name' := by
  rw [envEnsure]
  split
  · rfl
  · exact if_neg h

/-- One that is set to what it is compared with has that value. -/
@[simp] theorem envEnsure_env_self : (envEnsure name want want s).1.env name = some want := by
  rw [envEnsure]
  split
  · assumption
  · exact if_pos rfl

/-! ## The step -/

theorem envFirst_bootdelay : (envFirst w).1.env "bootdelay" ≠ none := by
  rw [envFirst]
  split
  · exact Option.some_ne_none "0"
  · assumption

theorem envFirst_ipaddr : (envFirst w).1.env "ipaddr" = w.env "ipaddr" := by
  rw [envFirst]
  split <;> rfl

theorem envFirst_of_ne (h : w.env "bootdelay" ≠ none) : envFirst w = (w, false) := if_neg h

/-- Saving leaves the variables. -/
theorem am62xBoardEnvInit_env : (am62xBoardEnvInit w).2.env = (envPass w).1.env := by
  rw [am62xBoardEnvInit_eq, apply_ite World.env]
  exact ite_self _

/-- The variables but `ipaddr` have the values the step compares them
with. -/
structure Settled (media : ℕ) (env : String → Option String) : Prop where
  bootdelay : env "bootdelay" ≠ none
  serverip : env "serverip" = some "192.168.1.124"
  gatewayip : env "gatewayip" = some "192.168.1.1"
  mmcdev : env "mmcdev" = some (if media = boardAbilityDevEmmc then "0" else "1")
  mmcboot : media = boardAbilityDevSd ∨ media = boardAbilityDevEmmc →
    env "mmcboot" = some "bootk" ∧ env "bootcmd" = some "run mmcboot"

/-- **A run settles** all but `ipaddr`. -/
theorem settled_envPass : Settled w.stAbility.stBoot.iBootMedia (envPass w).1.env := by
  unfold envPass
  by_cases hmmc : w.stAbility.stBoot.iBootMedia = boardAbilityDevSd ∨
      w.stAbility.stBoot.iBootMedia = boardAbilityDevEmmc
  · simp only [if_pos hmmc]
    constructor <;> simp [envFirst_bootdelay]
  · simp only [if_neg hmmc]
    exact ⟨by simp [envFirst_bootdelay], by simp, by simp, by simp, fun h => absurd h hmmc⟩

/-- And that is left alone where it has the value looked for, and set to
another where not. -/
theorem envPass_ipaddr : (envPass w).1.env "ipaddr" =
    some (if w.env "ipaddr" = some "192.168.1.100" then "192.168.1.100" else "192.168.1.50") := by
  have hset : ∀ s : World × Bool, s.1.env "ipaddr" = w.env "ipaddr" →
      (envEnsure "ipaddr" "192.168.1.100" "192.168.1.50" s).1.env "ipaddr" =
        some (if w.env "ipaddr" = some "192.168.1.100" then "192.168.1.100"
          else "192.168.1.50") := by
    intro s hs
    by_cases h : w.env "ipaddr" = some "192.168.1.100"
    · rw [envEnsure_of_eq "ipaddr" (hs.trans h), hs, h, if_pos rfl]
    · rw [envEnsure_of_ne (by rwa [hs]), if_neg h]
      rfl
  have hfirst := hset (envEnsure "serverip" "192.168.1.124" "192.168.1.124" (envFirst w))
    (by simp [envFirst_ipaddr])
  rw [← hfirst]
  unfold envPass
  by_cases hmmc : w.stAbility.stBoot.iBootMedia = boardAbilityDevSd ∨
      w.stAbility.stBoot.iBootMedia = boardAbilityDevEmmc
  · simp only [if_pos hmmc]
    simp
  · simp only [if_neg hmmc]
    simp

/-- **Where all is settled** `ipaddr` alone is looked at. -/
theorem envPass_of_settled (h : Settled w.stAbility.stBoot.iBootMedia w.env) :
    envPass w = envEnsure "ipaddr" "192.168.1.100" "192.168.1.50" (w, false) := by
  simp only [envPass]
  rw [envFirst_of_ne h.bootdelay, envEnsure_of_eq "serverip" h.serverip]
  have hother : ∀ name' : String, name' ≠ "ipaddr" →
      (envEnsure "ipaddr" "192.168.1.100" "192.168.1.50" (w, false)).1.env name' = w.env name' :=
    fun name' hne => envEnsure_env_of_ne hne
  generalize envEnsure "ipaddr" "192.168.1.100" "192.168.1.50" (w, false) = s at hother ⊢
  rw [envEnsure_of_eq "gatewayip" ((hother _ (by decide)).trans h.gatewayip),
    envEnsure_of_eq "mmcdev" ((hother _ (by decide)).trans h.mmcdev)]
  split
  · rename_i hmmc
    obtain ⟨hboot, hcmd⟩ := h.mmcboot hmmc
    rw [envEnsure_of_eq "mmcboot" ((hother _ (by decide)).trans hboot),
      envEnsure_of_eq "bootcmd" ((hother _ (by decide)).trans hcmd)]
  · rfl

/-! ## Twice -/

/-- The environment behind a first run, and behind a second. -/
def envOnce (w : World) : World := (am62xBoardEnvInit w).2

theorem settled_envOnce : Settled (envOnce w).stAbility.stBoot.iBootMedia (envOnce w).env := by
  rw [envOnce, am62xBoardEnvInit_env, am62xBoardEnvInit_aside.stAbility]
  exact settled_envPass

/-- The second run changes nothing and saves nothing. -/
structure Quiet (w : World) : Prop where
  env : (am62xBoardEnvInit (envOnce w)).2.env = (envOnce w).env
  unsaved : Call.envSave ∉ (envOnce w).since (am62xBoardEnvInit (envOnce w)).2

theorem quiet_of_ipaddr (h : w.env "ipaddr" = some "192.168.1.100") : Quiet w := by
  have hip : (envOnce w).env "ipaddr" = some "192.168.1.100" := by
    rw [envOnce, am62xBoardEnvInit_env, envPass_ipaddr, if_pos h]
  have hpass : envPass (envOnce w) = (envOnce w, false) := by
    rw [envPass_of_settled settled_envOnce, envEnsure_of_eq "ipaddr" hip]
  have hrun : (am62xBoardEnvInit (envOnce w)).2 = envOnce w := by
    rw [am62xBoardEnvInit_eq, hpass]
    rfl
  constructor
  · rw [hrun]
  · rw [hrun, World.since, List.drop_length]
    exact List.not_mem_nil

theorem not_quiet_of_ipaddr (h : w.env "ipaddr" ≠ some "192.168.1.100") : ¬ Quiet w := by
  have hip : (envOnce w).env "ipaddr" ≠ some "192.168.1.100" := by
    rw [envOnce, am62xBoardEnvInit_env, envPass_ipaddr, if_neg h]
    decide
  have hpass : envPass (envOnce w) = ((envOnce w).envSet "ipaddr" "192.168.1.50", true) := by
    rw [envPass_of_settled settled_envOnce, envEnsure_of_ne hip]
  have hrun : (am62xBoardEnvInit (envOnce w)).2 =
      ((envOnce w).envSet "ipaddr" "192.168.1.50").advance [] [.envSave] 0 := by
    rw [am62xBoardEnvInit_eq, hpass]
    rfl
  intro hquiet
  refine hquiet.unsaved ?_
  have hsaved : (envOnce w).since
      (((envOnce w).envSet "ipaddr" "192.168.1.50").advance [] [.envSave] 0) = [.envSave] :=
    World.since_of_trace rfl
  rw [hrun, hsaved]
  exact List.mem_singleton.2 rfl

/-- **The step is idempotent** exactly where `ipaddr` had the value looked
for before the first run. -/
theorem quiet_iff (w : World) : Quiet w ↔ w.env "ipaddr" = some "192.168.1.100" := by
  constructor
  · intro h
    by_contra hne
    exact not_quiet_of_ipaddr hne h
  · exact quiet_of_ipaddr

/-- **An environment that is new** is saved twice. -/
theorem not_quiet_new : ¬ ∀ w : World, Quiet w :=
  fun h => not_quiet_of_ipaddr (w := Bench.signedWorld) (by simp [Bench.signedWorld, Bench.world])
    (h Bench.signedWorld)

end Environment

end Boot

end ObcSdk

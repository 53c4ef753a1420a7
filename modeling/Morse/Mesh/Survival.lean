import Morse.Mesh.Restart

/-!
# What of a mesh configuration survives a restart

The interface follows what the commands ask for, and the copy holds what was asked for up to the
last mesh configuration.  Restoring reads the copy but for the peering, so that all settings are
kept by a restart exactly when nothing beyond the copy and the defaults was asked for.
-/

namespace Morse
namespace Mesh

open Lib

variable {addr : Addr} {firmware : CfgMesh → Bool} {mesh : MorseMesh} {driver next : Driver}
  {start restored : Driver} {command : Command} {commands : List Command} {settings : Settings}

/-! ## Copies -/

theorem take_copyMeshId (count : Nat) (source target : MeshId) :
    (copyMeshId count source target).toList.take count = source.toList.take count := by
  apply List.ext_getElem
  · rw [List.length_take, List.length_take, Vector.length_toList, Vector.length_toList]
  · intro index first second
    have inside : index < count := by
      rw [List.length_take] at first
      omega
    rw [List.getElem_take, List.getElem_take, Vector.getElem_toList, Vector.getElem_toList]
    simp only [copyMeshId, Vector.getElem_ofFn, inside, if_true]

variable {configs : List MeshConfigList}

theorem findMeshConfig_rewrite (found : findMeshConfig addr configs = some config) :
    findMeshConfig addr (rewrite addr mesh configs) = some (mesh.written addr config) := by
  induction configs with
  | nil => cases found
  | cons first rest ih =>
    rw [findMeshConfig, List.find?_cons] at found
    rw [rewrite]
    by_cases here : first.addr = addr
    · rw [decide_eq_true here] at found
      cases found
      rw [if_pos here, findMeshConfig, List.find?_cons_of_pos]
      exact decide_eq_true rfl
    · rw [decide_eq_false here] at found
      rw [if_neg here, findMeshConfig, List.find?_cons_of_neg]
      · exact ih found
      · rw [decide_eq_true_eq]
        exact here

variable {found : MeshConfigList}

theorem written_of_storeMeshConfig
    (finds : findMeshConfig addr (storeMeshConfig addr mesh allocated configs) = some found) :
    ∃ config, found = mesh.written addr config := by
  rw [storeMeshConfig] at finds
  cases before : findMeshConfig addr configs with
  | some config =>
    rw [before] at finds
    rw [findMeshConfig_rewrite before] at finds
    cases finds
    exact ⟨config, rfl⟩
  | none =>
    rw [before] at finds
    cases allocated with
    | true =>
      refine ⟨MeshConfigList.zero, ?_⟩
      rw [if_pos rfl, findMeshConfig, List.find?_cons_of_pos] at finds
      · cases finds
        rfl
      · exact decide_eq_true rfl
    | false =>
      rw [if_neg Bool.false_ne_true, before] at finds
      cases finds

theorem network_written (config : MeshConfigList) :
    (mesh.written addr config).meshConf.network = mesh.settings.network := by
  rw [MorseMesh.written, MeshConfig.network, MorseMesh.settings, take_copyMeshId]
  cases mesh.meshBeaconlessMode with
  | true => rfl
  | false => rfl

/-! ## The interface follows what is asked for -/

theorem settings_named (conf : MeshConfig) :
    (mesh.named conf).settings = { mesh.settings with network := conf.network } := by
  rw [MorseMesh.settings, MorseMesh.ownId, MorseMesh.named, take_copyMeshId]
  rfl

theorem settings_cmdCfgMeshBss (firmware : CfgMesh → Bool) (stop : Bool) (mesh : MorseMesh) :
    (cmdCfgMeshBss firmware stop mesh).1.settings =
      { mesh.settings with mbca := mesh.settings.network.quiet mesh.settings.mbca } := by
  rcases mesh with ⟨active, beaconless, id, length, plinks, peers, margin, timeout, peer, ts, mbca⟩
  cases beaconless with
  | true => rfl
  | false => rfl

theorem cmdSetMeshConfig_accepted
    (accepted : cmdSetMeshConfig addr firmware source driver = (next, none)) :
    next.mesh.settings =
        { driver.mesh.settings with
          network := source.conf.network
          mbca := source.conf.network.quiet driver.mesh.settings.mbca } ∧
      next.configs = source.copies addr next.mesh driver.configs := by
  rw [cmdSetMeshConfig] at accepted
  split at accepted
  · cases accepted
  · split at accepted
    · cases accepted
    · dsimp only at accepted
      split at accepted
      · cases accepted
      · cases accepted
        have configured := settings_cmdCfgMeshBss firmware false (driver.mesh.named source.conf)
        rw [settings_named] at configured
        exact ⟨configured, rfl⟩

theorem settings_accept (accepted : accept addr driver command = some next) :
    next.mesh.settings = command.ask driver.mesh.settings := by
  cases command with
  | setMeshConfig conf answers allocated =>
    rw [accept] at accepted
    split at accepted
    · next processed =>
        cases accepted
        exact (cmdSetMeshConfig_accepted processed).1
    · cases accepted
  | setMbcaConf conf =>
    cases accepted
    rfl
  | dynamicPeering conf =>
    cases accepted
    rfl
  | stop answers =>
    cases accepted
    exact settings_cmdCfgMeshBss answers true driver.mesh

theorem configs_accept (accepted : accept addr driver command = some next)
    (other : command.configures = false) :
    next.configs = driver.configs := by
  cases command with
  | setMeshConfig conf answers allocated => cases other
  | setMbcaConf conf =>
    cases accepted
    rfl
  | dynamicPeering conf =>
    cases accepted
    rfl
  | stop answers =>
    cases accepted
    rfl

theorem written_of_accept (accepted : accept addr driver command = some next)
    (names : command.configures = true) (finds : findMeshConfig addr next.configs = some found) :
    ∃ config, found = next.mesh.written addr config := by
  cases command with
  | setMeshConfig conf answers allocated =>
    rw [accept] at accepted
    split at accepted
    · next processed =>
        cases accepted
        rw [(cmdSetMeshConfig_accepted processed).2] at finds
        exact written_of_storeMeshConfig finds
    · cases accepted
  | setMbcaConf conf => cases names
  | dynamicPeering conf => cases names
  | stop answers => cases names

/-! ## What was asked for up to the last mesh configuration -/

theorem asked_concat :
    asked settings (commands ++ [command]) = command.ask (asked settings commands) := by
  rw [asked, List.foldl_append]
  rfl

theorem upToConfiguration_concat_of_true (names : command.configures = true) :
    upToConfiguration (commands ++ [command]) = commands ++ [command] := by
  rw [upToConfiguration, List.rdropWhile_concat, names, if_neg]
  exact Bool.false_ne_true

theorem upToConfiguration_concat_of_false (other : command.configures = false) :
    upToConfiguration (commands ++ [command]) = upToConfiguration commands := by
  rw [upToConfiguration, List.rdropWhile_concat_pos]
  · rfl
  · rw [other]
    rfl

theorem network_ask_of_false (other : command.configures = false) :
    (command.ask settings).network = settings.network := by
  cases command with
  | setMeshConfig conf answers allocated => cases other
  | setMbcaConf conf => rfl
  | dynamicPeering conf => rfl
  | stop answers => rfl

theorem network_asked_upToConfiguration (settings : Settings) (commands : List Command) :
    (asked settings (upToConfiguration commands)).network = (asked settings commands).network := by
  induction commands using List.reverseRecOn with
  | nil => rfl
  | append_singleton before command ih =>
    cases names : command.configures with
    | true => rw [upToConfiguration_concat_of_true names]
    | false =>
      rw [upToConfiguration_concat_of_false names, asked_concat, network_ask_of_false names,
        ih]

theorem quiet_quiet (network : Network) (mbca : Mbca) :
    network.quiet (network.quiet mbca) = network.quiet mbca := by
  rw [Network.quiet, Network.quiet]
  cases network.beaconless with
  | true => rfl
  | false => rfl

theorem quiet_asked_upToConfiguration (settings : Settings)
    (configured : upToConfiguration commands ≠ []) :
    (asked settings (upToConfiguration commands)).network.quiet
        (asked settings (upToConfiguration commands)).mbca =
      (asked settings (upToConfiguration commands)).mbca := by
  induction commands using List.reverseRecOn with
  | nil => exact absurd rfl configured
  | append_singleton before command ih =>
    cases names : command.configures with
    | true =>
      rw [upToConfiguration_concat_of_true names, asked_concat]
      cases command with
      | setMeshConfig conf answers allocated => exact quiet_quiet _ _
      | setMbcaConf conf => cases names
      | dynamicPeering conf => cases names
      | stop answers => cases names
    | false =>
      rw [upToConfiguration_concat_of_false names] at configured ⊢
      exact ih configured

/-! ## Runs -/

/-- The interface is as asked, and the copy is as asked up to the last mesh configuration. -/
structure Followed (addr : Addr) (start : Driver) (commands : List Command) (driver : Driver) :
    Prop where
  settings : driver.mesh.settings = asked start.mesh.settings commands
  unconfigured : upToConfiguration commands = [] → driver.configs = start.configs
  copied : upToConfiguration commands ≠ [] →
    ∀ config, findMeshConfig addr driver.configs = some config →
      config.meshConf.network =
          (asked start.mesh.settings (upToConfiguration commands)).network ∧
        config.mbca.parameters = (asked start.mesh.settings (upToConfiguration commands)).mbca

theorem Followed.accept (followed : Followed addr start commands driver)
    (accepted : accept addr driver command = some next) :
    Followed addr start (commands ++ [command]) next := by
  have settings : next.mesh.settings = asked start.mesh.settings (commands ++ [command]) := by
    rw [settings_accept accepted, followed.settings, asked_concat]
  cases names : command.configures with
  | true =>
    have whole : upToConfiguration (commands ++ [command]) = commands ++ [command] :=
      upToConfiguration_concat_of_true names
    refine ⟨settings, ?_, ?_⟩
    · intro none
      rw [whole] at none
      exact absurd none (List.append_ne_nil_of_right_ne_nil _ (List.cons_ne_nil _ _))
    · intro _ found finds
      obtain ⟨config, wrote⟩ := written_of_accept accepted names finds
      rw [whole, ← settings, wrote, network_written]
      exact ⟨rfl, rfl⟩
  | false =>
    have same := configs_accept accepted names
    refine ⟨settings, ?_, ?_⟩
    · rw [upToConfiguration_concat_of_false names, same]
      exact followed.unconfigured
    · rw [upToConfiguration_concat_of_false names, same]
      exact followed.copied

theorem followed_of_run (accepted : run (accept addr) start commands = some driver) :
    Followed addr start commands driver := by
  have initial : Followed addr start [] start := by
    refine ⟨rfl, fun _ => rfl, ?_⟩
    intro configured
    exact absurd rfl configured
  exact run_history Followed.accept commands initial accepted

/-! ## Restarts -/

theorem settings_restoreMeshConfig
    (restores : restoreMeshConfig addr firmware driver = (restored, none)) :
    ∃ config, findMeshConfig addr driver.configs = some config ∧
      restored.mesh.settings =
        { network := config.meshConf.network
          mbca := config.meshConf.network.quiet config.mbca.parameters
          peering := driver.mesh.settings.peering } := by
  rw [restoreMeshConfig] at restores
  split at restores
  · cases restores
  · next config found =>
      refine ⟨config, found, ?_⟩
      cases set : cmdSetMeshConfig addr firmware (.stored config)
          { driver with mesh := { driver.mesh with mbca := config.mbca } } with
      | mk after answer =>
        rw [set] at restores
        cases answer with
        | some error => cases restores
        | none =>
          cases restores
          exact (cmdSetMeshConfig_accepted set).1

/-- The settings are kept by a restart exactly when the commands before it asked for nothing
that the copy and the defaults do not hold. -/
theorem survives_iff (addr : Addr) (start : Driver) (commands : List Command)
    {driver restored : Driver} (accepted : run (accept addr) start commands = some driver)
    {firmware : CfgMesh → Bool}
    (restores : restoreMeshConfig addr firmware driver.restarted = (restored, none)) :
    restored.mesh.settings = driver.mesh.settings ↔ Lasting addr start commands := by
  have followed := followed_of_run accepted
  obtain ⟨config, found, restoredSettings⟩ := settings_restoreMeshConfig restores
  have copy : findMeshConfig addr driver.configs = some config := found
  rw [restoredSettings, followed.settings]
  constructor
  · intro same
    have network := congrArg Settings.network same
    have mbca := congrArg Settings.mbca same
    have peering := congrArg Settings.peering same
    refine ⟨peering.symm, ?_, ?_⟩
    · intro configured
      obtain ⟨named, kept⟩ := followed.copied configured config copy
      rw [← mbca]
      rw [named, kept, quiet_asked_upToConfiguration _ configured]
    · intro unconfigured old finds
      rw [followed.unconfigured unconfigured, finds] at copy
      cases copy
      exact ⟨network.symm, mbca.symm⟩
  · intro lasting
    by_cases unconfigured : upToConfiguration commands = []
    · rw [followed.unconfigured unconfigured] at copy
      obtain ⟨network, mbca⟩ := lasting.unconfigured unconfigured config copy
      apply Settings.ext
      · exact network.symm
      · exact mbca.symm
      · exact lasting.peering.symm
    · obtain ⟨named, kept⟩ := followed.copied unconfigured config copy
      rw [named, kept, quiet_asked_upToConfiguration _ unconfigured, ← lasting.mbca unconfigured,
        network_asked_upToConfiguration]
      apply Settings.ext
      · rfl
      · rfl
      · exact lasting.peering.symm

/-- A network with beacons and without a name. -/
def plainConf : MeshConfig where
  meshIdLen := 0
  meshId := noMeshId
  meshBeaconlessMode := 0
  maxPlinks := 10

theorem survives_iff_plain :
    ∃ driver restored,
      run (accept 1) ⟨meshInit, []⟩ [.setMeshConfig plainConf (fun _ => true) true] =
          some driver ∧
        restoreMeshConfig 1 (fun _ => true) driver.restarted = (restored, none) ∧
        restored.mesh.settings = driver.mesh.settings := by
  refine ⟨_, _, rfl, rfl, ?_⟩
  refine (survives_iff 1 ⟨meshInit, []⟩ [.setMeshConfig plainConf (fun _ => true) true]
    rfl rfl).mpr ?_
  refine ⟨rfl, fun _ => rfl, ?_⟩
  intro none
  exact absurd none (List.cons_ne_nil _ _)

/-- Peering that is switched on before the mesh configuration is off after a restart, and the
parameters that are asked for after it are those from before. -/
theorem settings_lost :
    (∃ driver restored,
      run (accept 1) ⟨meshInit, []⟩
          [.dynamicPeering ⟨1, 5, 30⟩, .setMeshConfig plainConf (fun _ => true) true] =
        some driver ∧
      restoreMeshConfig 1 (fun _ => true) driver.restarted = (restored, none) ∧
      driver.mesh.settings.peering.enabled = true ∧
      restored.mesh.settings.peering.enabled = false) ∧
    ∃ driver restored,
      run (accept 1) ⟨meshInit, []⟩
          [.setMeshConfig plainConf (fun _ => true) true, .setMbcaConf ⟨3, 10, 25, 2048, 60000⟩] =
        some driver ∧
      restoreMeshConfig 1 (fun _ => true) driver.restarted = (restored, none) ∧
      driver.mesh.settings.mbca.mbcaConfig = 3 ∧
      restored.mesh.settings.mbca.mbcaConfig = 1 := by
  refine ⟨⟨_, _, rfl, rfl, rfl, rfl⟩, ⟨_, _, rfl, rfl, rfl, rfl⟩⟩

end Mesh
end Morse

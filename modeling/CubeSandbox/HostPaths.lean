import CubeSandbox.GoPath
import CubeSandbox.Tbl

/-!
Host paths in a create request (`CubeMaster/pkg/service/sandbox/hostdir_mount.go`, `util.go`).

`ConstructCubeletReq` takes host paths from an annotation, from the sources of volumes and from the
mounts of containers. The first two are checked against the allowed prefixes; a mount is passed on
with the host path that the caller gave it.
-/

namespace CubeSandbox.HostPaths

open GoText GoPath List

inductive Err
  | annotationInvalid
  | notAbsolute (i : Nat)
  | notAllowed (hostPath : Bytes)
  | emptyName
  | emptyHostPath (name : Bytes)
  | volumeMounts
  /-- One of the checks that host paths have no part in. -/
  | other

structure HostDirMountOption where
  hostPath : Bytes
  mountPath : Bytes
  readOnly : Bool

structure HostDirSource where
  name : Bytes
  hostPath : Bytes

/-- A volume may have no source at all, and a source no host directories. -/
structure Volume where
  name : Bytes
  source : Option (Option (List HostDirSource))

structure VolumeMount where
  name : Bytes
  containerPath : Bytes
  hostPath : Bytes
  readonly : Bool
  propagation : Nat
  exec : Bool
  recursiveReadOnly : Bool

/-- A container, with the errors of the checks before and after the one on its mounts. -/
structure Container where
  volumeMounts : List VolumeMount
  before : Option Err
  after : Option Err

/-- A request, with the error of the checks on its other fields that come before and after. -/
structure Req where
  annotations : Tbl Bytes Bytes
  volumes : List Volume
  containers : List Container
  before : Option Err
  after : Option Err

/-- The request sent to the node. -/
structure Out where
  volumes : List (Bytes × List HostDirSource)
  containers : List (List VolumeMount)

/-- The configuration, the decoding of the two annotations, and the error of a volume's lookup. -/
structure Env where
  allowedHostMountPrefixes : List Bytes
  hostDirMounts : Bytes → Option (List HostDirMountOption)
  pluginMounts : Bytes → Option (List (Bytes × Bytes × Bool))
  resolve : Tbl Bytes Bytes → Bytes → Option Err

def pass (e : Option Err) : Except Err Unit := e.elim (.ok ()) .error

/-- The check of the configuration at its load. -/
def Env.Valid (env : Env) : Prop :=
  ∀ p ∈ env.allowedHostMountPrefixes, clean p ≠ [slash] ∧ clean p ≠ dot ∧ isAbs p = true

/-- `GetAllowedHostMountPrefixes`. -/
def Env.allowed (env : Env) : List Bytes :=
  if env.allowedHostMountPrefixes = [] then [ascii "/data/shared/"]
  else env.allowedHostMountPrefixes.map fun p =>
    if p.getLast? = some slash then p else p ++ [slash]

def validateHostPath (env : Env) (hostPath : Bytes) : Except Err Bytes :=
  if env.allowed.any fun q => q.isPrefixOf (clean hostPath ++ [slash]) then .ok (clean hostPath)
  else .error (.notAllowed hostPath)

def checkOption (env : Env) (x : HostDirMountOption × Nat) : Except Err HostDirMountOption :=
  if isAbs x.1.hostPath = false ∨ isAbs x.1.mountPath = false then .error (.notAbsolute x.2)
  else do return { x.1 with hostPath := ← validateHostPath env x.1.hostPath }

def hostDirName (i : Nat) : Bytes := ascii "hostdir-" ++ decimalText i

def mountAll (vm : List VolumeMount) (cs : List Container) : List Container :=
  cs.map fun c => { c with volumeMounts := c.volumeMounts ++ vm }

def injectHostDirMounts (env : Env) (req : Req) : Except Err Req :=
  match (req.annotations.get (ascii "host-mount")).filter (trimSpace · ≠ []) with
  | none => .ok req
  | some raw =>
    match env.hostDirMounts raw with
    | none => .error .annotationInvalid
    | some opts => do
      let opts ← opts.zipIdx.mapM (checkOption env)
      return { req with
        volumes := req.volumes ++ opts.zipIdx.map fun x =>
          ⟨hostDirName x.2, some (some [⟨hostDirName x.2, x.1.hostPath⟩])⟩
        containers := mountAll (opts.zipIdx.map fun x =>
          ⟨hostDirName x.2, x.1.mountPath, x.1.hostPath, x.1.readOnly, 0, false, false⟩)
          req.containers }

def pluginEntries (env : Env) (req : Req) : Except Err (List (Bytes × Bytes × Bool)) :=
  match (req.annotations.get (ascii "plugin-volume-mounts")).filter (· ≠ []) with
  | none => .ok []
  | some raw => (env.pluginMounts raw).elim (.error .annotationInvalid) .ok

def pluginMount (e : Bytes × Bytes × Bool) : VolumeMount := ⟨e.1, e.2.1, [], e.2.2, 0, false, false⟩

def injectPluginVolumeMounts (env : Env) (req : Req) : Except Err Req := do
  let entries ← pluginEntries env req
  return { req with containers := mountAll (entries.map pluginMount) req.containers }

def checkAndGetHostDirVolumeSource (env : Env) (s : HostDirSource) : Except Err HostDirSource :=
  if s.name = [] then .error .emptyName
  else if s.hostPath = [] then .error (.emptyHostPath s.name)
  else do return { s with hostPath := ← validateHostPath env s.hostPath }

/-- A volume is a plugin's when an entry of the annotation names it or it has no source. -/
def checkAndGetVolume (env : Env) (req : Req) (v : Volume) :
    Except Err (Bytes × List HostDirSource) :=
  -- an annotation that cannot be decoded has been an error before
  let plugins := ((pluginEntries env req).toOption.getD []).map Prod.fst
  if v.name = [] then .error .emptyName
  else match if v.name ∈ plugins then none else v.source with
    | none => do
      pass (env.resolve req.annotations v.name)
      return (v.name, [])
    | some sources => do
      let sources ← (sources.getD []).mapM (checkAndGetHostDirVolumeSource env)
      return (v.name, sources)

def hostDirVolumeNames (volumes : List Volume) : List Bytes :=
  (volumes.filter fun v => (v.source.bind id).isSome).map Volume.name

def checkAndGetVolumeMount (names : List Bytes) (m : VolumeMount) : Except Err VolumeMount :=
  if m.name = [] ∨ m.containerPath = [] then .error .volumeMounts
  else .ok <| if m.name ∈ names then
      { m with
        propagation := 0
        exec := false
        recursiveReadOnly := m.readonly || m.recursiveReadOnly }
    else m

def checkAndGetContainer (names : List Bytes) (c : Container) : Except Err (List VolumeMount) := do
  pass c.before
  let mounts ← c.volumeMounts.mapM (checkAndGetVolumeMount names)
  pass c.after
  return mounts

def constructCubeletReq (env : Env) (req : Req) : Except Err Out := do
  pass req.before
  let req ← injectHostDirMounts env req
  let req ← injectPluginVolumeMounts env req
  let volumes ← req.volumes.mapM (checkAndGetVolume env req)
  let containers ← req.containers.mapM (checkAndGetContainer (hostDirVolumeNames req.volumes))
  pass req.after
  return ⟨volumes, containers⟩

/-- The path is, after cleaning, absolute and equal to or below one of the allowed prefixes. -/
def Inside (env : Env) (p : Bytes) : Prop :=
  isAbs (clean p) = true ∧ ∃ q ∈ env.allowed, parts q <+: parts (clean p)

def mountPaths (mounts : List (List VolumeMount)) : List Bytes :=
  (mounts.flatMap fun ms => ms.map VolumeMount.hostPath).filter (· ≠ [])

/-- The host paths in the sources of volumes and in the mounts of containers. -/
def Out.hostPaths (out : Out) : List Bytes :=
  out.volumes.flatMap (fun v => v.2.map HostDirSource.hostPath) ++ mountPaths out.containers

def MountsInside (env : Env) (cs : List Container) : Prop :=
  ∀ c ∈ cs, ∀ m ∈ c.volumeMounts, m.hostPath ≠ [] → Inside env m.hostPath

section

variable {α β γ : Type} {env : Env} {p q : Bytes} {x : Except Err α} {f : α → Except Err β}

lemma bind_ok {b : β} : (x >>= f) = .ok b ↔ ∃ a, x = .ok a ∧ f a = .ok b := by
  cases x <;> simp [bind, Except.bind]

lemma push_extends (r : Bool) (out : List Bytes) {c : Bytes} (hc : c ≠ dotDot) :
    out <+: push r out c := by
  unfold push
  split_ifs
  · exact prefix_rfl
  · exact prefix_append out [c]

lemma foldl_push_extends (r : Bool) (cs out : List Bytes) (hcs : dotDot ∉ cs) :
    out <+: cs.foldl (push r) out := by
  induction cs generalizing out with
  | nil => exact prefix_rfl
  | cons c cs ih =>
    rw [mem_cons, not_or] at hcs
    exact (push_extends r out (Ne.symm hcs.1)).trans (ih (push r out c) hcs.2)

lemma foldl_push_down (cs : List Bytes) {out : List Bytes} (h : dotDot ∉ out) :
    dotDot ∉ cs.foldl (push true) out := by
  induction cs generalizing out with
  | nil => exact h
  | cons c cs ih =>
    refine ih ?_
    unfold push
    by_cases h1 : c = [] ∨ c = dot
    · rwa [if_pos h1]
    rw [if_neg h1]
    by_cases h2 : c = dotDot
    · rw [if_pos h2]
      cases hd : out.getLast? with
      | none => simp
      | some d =>
        have hne : d ≠ dotDot := fun e => h (e ▸ mem_of_getLast? hd)
        simp only [if_neg hne]
        exact fun hm => h (mem_of_mem_dropLast hm)
    · rw [if_neg h2, mem_append, mem_singleton, not_or]
      exact ⟨h, Ne.symm h2⟩

lemma split_clean_down (h : isAbs p = true) : dotDot ∉ split (clean p) := by
  have hdown : dotDot ∉ parts p := by
    unfold parts
    rw [h]
    exact foldl_push_down (split p) (by simp)
  unfold clean render split
  rw [h, if_pos rfl, splitOn_cons_eq_if_modifyHead, if_pos (by simp)]
  rcases eq_or_ne (parts p) [] with hnil | hne
  · simp [hnil, dotDot]
  · rw [splitOn_intercalate slash (fun c hc => (kept_parts p c hc).2.2) hne]
    simpa [dotDot] using hdown

lemma foldl_push_nil (r : Bool) (cs : List Bytes) :
    (cs ++ [[]]).foldl (push r) [] = cs.foldl (push r) [] := by
  simp [push]

lemma parts_extends (hp : isAbs p = true) (hq : isAbs q = true) (hlast : q.getLast? = some slash)
    (h : q <+: clean p ++ [slash]) : parts q <+: parts (clean p) := by
  obtain ⟨d, rfl⟩ := getLast?_eq_some_iff.1 hlast
  obtain ⟨r, hr⟩ := h
  have hsplit : split d ++ split r = split (clean p) ++ [[]] := by
    have e := congrArg split hr
    simpa only [split, append_assoc, singleton_append, splitOn_append_cons_self,
      splitOn_nil] using e
  have hdown : dotDot ∉ split r := by
    intro hm
    have hm' : dotDot ∈ split (clean p) ++ [[]] := hsplit ▸ mem_append_right (split d) hm
    rcases mem_append.1 hm' with hm' | hm'
    · exact split_clean_down hp hm'
    · simp [dotDot] at hm'
  have hd : parts (d ++ [slash]) = (split d).foldl (push true) [] := by
    rw [parts, hq, split, splitOn_append_cons_self, splitOn_nil, foldl_push_nil, split]
  have hc : parts (clean p) = (split r).foldl (push true) ((split d).foldl (push true) []) := by
    rw [parts, isAbs_clean, hp, ← foldl_push_nil, ← hsplit, foldl_append]
  rw [hd, hc]
  exact foldl_push_extends true (split r) _ hdown

lemma allowed_spec (hv : env.Valid) (hq : q ∈ env.allowed) :
    isAbs q = true ∧ q.getLast? = some slash := by
  unfold Env.allowed at hq
  split_ifs at hq with hnil
  · rw [mem_singleton.1 hq]
    decide
  obtain ⟨d, hd, rfl⟩ := mem_map.1 hq
  have habs := (hv d hd).2.2
  split_ifs with hlast
  · exact ⟨habs, hlast⟩
  have hne : d ≠ [] := by
    rintro rfl
    cases habs
  exact ⟨(isAbs_append hne).trans habs, by simp⟩

lemma inside_of_validate (hv : env.Valid) (h : validateHostPath env p = .ok q) : Inside env q := by
  unfold validateHostPath at h
  split_ifs at h with hany
  cases h
  obtain ⟨d, hd, hpre⟩ := any_eq_true.1 hany
  have hpre' : d <+: clean p ++ [slash] := isPrefixOf_iff_prefix.1 hpre
  obtain ⟨habs, hlast⟩ := allowed_spec hv hd
  have hp : isAbs p = true := by
    obtain ⟨r, hr⟩ := hpre'
    have hne : d ≠ [] := by
      rintro rfl
      cases habs
    rw [← isAbs_clean, ← isAbs_append (clean_ne_nil p) (q := [slash]), ← hr, isAbs_append hne, habs]
  refine ⟨by rw [isAbs_clean, isAbs_clean, hp], d, hd, ?_⟩
  rw [parts_clean]
  exact parts_extends hp habs hlast hpre'

lemma mapM_forall {P : β → Prop} (hf : ∀ a b, f a = .ok b → P b)
    {as : List α} {bs : List β} (h : as.mapM f = .ok bs) : ∀ b ∈ bs, P b := by
  induction as generalizing bs with
  | nil =>
    cases h
    simp
  | cons a as ih =>
    rw [mapM_cons, bind_ok] at h
    obtain ⟨b, hb, h⟩ := h
    obtain ⟨bs, hbs, h⟩ := bind_ok.1 h
    cases h
    simpa using ⟨hf a b hb, ih hbs⟩

lemma mapM_map {g : α → γ} {k : β → γ}
    (hf : ∀ a b, f a = .ok b → k b = g a) {as : List α} {bs : List β} (h : as.mapM f = .ok bs) :
    bs.map k = as.map g := by
  induction as generalizing bs with
  | nil =>
    cases h
    rfl
  | cons a as ih =>
    rw [mapM_cons, bind_ok] at h
    obtain ⟨b, hb, h⟩ := h
    obtain ⟨bs, hbs, h⟩ := bind_ok.1 h
    cases h
    rw [map_cons, map_cons, hf a b hb, ih hbs]

lemma inside_source (hv : env.Valid) {s t : HostDirSource}
    (h : checkAndGetHostDirVolumeSource env s = .ok t) : Inside env t.hostPath := by
  unfold checkAndGetHostDirVolumeSource at h
  split_ifs at h
  obtain ⟨c, hc, h⟩ := bind_ok.1 h
  cases h
  exact inside_of_validate hv hc

lemma inside_volume (hv : env.Valid) {req : Req} {v : Volume} {w : Bytes × List HostDirSource}
    (h : checkAndGetVolume env req v = .ok w) : ∀ s ∈ w.2, Inside env s.hostPath := by
  unfold checkAndGetVolume at h
  split_ifs at h
  dsimp only at h
  split at h
  · obtain ⟨_, -, h⟩ := bind_ok.1 h
    cases h
    simp
  obtain ⟨ss, hss, h⟩ := bind_ok.1 h
  cases h
  exact mapM_forall (fun _ _ => inside_source hv) hss

lemma inside_option (hv : env.Valid) {o : HostDirMountOption × Nat} {o' : HostDirMountOption}
    (h : checkOption env o = .ok o') : Inside env o'.hostPath := by
  unfold checkOption at h
  split_ifs at h
  obtain ⟨c, hc, h⟩ := bind_ok.1 h
  cases h
  exact inside_of_validate hv hc

lemma mountsInside_mountAll {vm : List VolumeMount} (cs : List Container)
    (hvm : ∀ m ∈ vm, m.hostPath ≠ [] → Inside env m.hostPath) :
    MountsInside env (mountAll vm cs) ↔ MountsInside env cs := by
  constructor
  · intro h c hc m hm
    exact h _ (mem_map.2 ⟨c, hc, rfl⟩) m (mem_append_left vm hm)
  intro h c' hc' m hm
  obtain ⟨c, hc, rfl⟩ := mem_map.1 hc'
  rcases mem_append.1 hm with hm | hm
  · exact h c hc m hm
  · exact hvm m hm

lemma mountsInside_inject (hv : env.Valid) {req req' : Req}
    (h : injectHostDirMounts env req = .ok req') :
    MountsInside env req'.containers ↔ MountsInside env req.containers := by
  unfold injectHostDirMounts at h
  split at h
  · cases h
    rfl
  split at h
  · cases h
  obtain ⟨opts, hopts, h⟩ := bind_ok.1 h
  cases h
  refine mountsInside_mountAll _ fun m hm _ => ?_
  obtain ⟨⟨o, i⟩, hx, rfl⟩ := mem_map.1 hm
  exact mapM_forall (fun _ _ => inside_option hv) hopts o (fst_mem_of_mem_zipIdx hx)

lemma mountsInside_plugin {req req' : Req} (h : injectPluginVolumeMounts env req = .ok req') :
    MountsInside env req'.containers ↔ MountsInside env req.containers := by
  obtain ⟨entries, -, h⟩ := bind_ok.1 h
  cases h
  refine mountsInside_mountAll _ fun m hm hne => ?_
  obtain ⟨e, -, rfl⟩ := mem_map.1 hm
  exact absurd rfl hne

variable {names : List Bytes}

lemma hostPath_mount {m m' : VolumeMount}
    (h : checkAndGetVolumeMount names m = .ok m') : m'.hostPath = m.hostPath := by
  unfold checkAndGetVolumeMount at h
  split_ifs at h <;> cases h <;> rfl

lemma hostPaths_container {c : Container} {ms : List VolumeMount}
    (h : checkAndGetContainer names c = .ok ms) :
    ms.map VolumeMount.hostPath = c.volumeMounts.map VolumeMount.hostPath := by
  obtain ⟨_, -, h⟩ := bind_ok.1 h
  obtain ⟨ms, hms, h⟩ := bind_ok.1 h
  obtain ⟨_, -, h⟩ := bind_ok.1 h
  cases h
  exact mapM_map (fun _ _ => hostPath_mount) hms

lemma mountsInside_out {cs : List Container} {mounts : List (List VolumeMount)}
    (h : cs.mapM (checkAndGetContainer names) = .ok mounts) :
    (∀ p ∈ mountPaths mounts, Inside env p) ↔ MountsInside env cs := by
  have hpaths := mapM_map (fun _ _ => hostPaths_container) h
  rw [mountPaths, flatMap_def, hpaths]
  simp only [mem_filter, mem_flatten, mem_map, decide_eq_true_eq]
  constructor
  · intro hin c hc m hm hne
    exact hin m.hostPath ⟨⟨_, ⟨c, hc, rfl⟩, mem_map.2 ⟨m, hm, rfl⟩⟩, hne⟩
  rintro hin p ⟨⟨ps, ⟨c, hc, rfl⟩, hp⟩, hne⟩
  obtain ⟨m, hm, rfl⟩ := mem_map.1 hp
  exact hin c hc m hm hne

end

/-- **The host paths of an accepted request are allowed exactly when those given in mounts are.** -/
theorem hostPaths_inside_iff (env : Env) (hv : env.Valid) (req : Req) (out : Out)
    (h : constructCubeletReq env req = .ok out) :
    (∀ p ∈ out.hostPaths, Inside env p) ↔ MountsInside env req.containers := by
  obtain ⟨_, -, h⟩ := bind_ok.1 h
  obtain ⟨req1, h1, h⟩ := bind_ok.1 h
  obtain ⟨req2, h2, h⟩ := bind_ok.1 h
  obtain ⟨volumes, hvolumes, h⟩ := bind_ok.1 h
  obtain ⟨mounts, hmounts, h⟩ := bind_ok.1 h
  obtain ⟨_, -, h⟩ := bind_ok.1 h
  cases h
  have hsources : ∀ p ∈ volumes.flatMap fun v => v.2.map HostDirSource.hostPath, Inside env p := by
    intro p hp
    obtain ⟨v, hvol, hp⟩ := mem_flatMap.1 hp
    obtain ⟨s, hs, rfl⟩ := mem_map.1 hp
    exact mapM_forall (fun _ _ => inside_volume hv) hvolumes v hvol s hs
  rw [← mountsInside_inject hv h1, ← mountsInside_plugin h2, ← mountsInside_out hmounts]
  constructor
  · exact fun hin p hp => hin p (mem_append_right _ hp)
  intro hin p hp
  rcases mem_append.1 hp with hp | hp
  · exact hsources p hp
  · exact hin p hp

/-- A deployment with the default prefixes, where no annotation can be decoded. -/
def demoEnv : Env := ⟨[], fun _ => none, fun _ => none, fun _ _ => none⟩

/-- One container with one mount of the host path. -/
def demoReq (hostPath : Bytes) : Req where
  annotations := ∅
  volumes := []
  containers := [⟨[⟨ascii "m", ascii "/mnt", hostPath, false, 0, false, false⟩], none, none⟩]
  before := none
  after := none

def demoOut (hostPath : Bytes) : Out :=
  ⟨[], [[⟨ascii "m", ascii "/mnt", hostPath, false, 0, false, false⟩]]⟩

theorem shared_mount_inside :
    ascii "/data/shared/a" ∈ (demoOut (ascii "/data/shared/a")).hostPaths ∧
      ∀ p ∈ (demoOut (ascii "/data/shared/a")).hostPaths, Inside demoEnv p := by
  refine ⟨by decide, (hostPaths_inside_iff demoEnv (by simp [Env.Valid, demoEnv])
    (demoReq (ascii "/data/shared/a")) (demoOut (ascii "/data/shared/a")) rfl).2 ?_⟩
  unfold MountsInside Inside
  decide

/-- **A mount of `/etc` is sent to the node.** -/
theorem etc_mount_sent : ∃ env req out, env.Valid ∧ constructCubeletReq env req = .ok out ∧
    ∃ p ∈ out.hostPaths, ¬ Inside env p := by
  refine ⟨demoEnv, demoReq (ascii "/etc"), demoOut (ascii "/etc"),
    by simp [Env.Valid, demoEnv], rfl, ascii "/etc", by decide, ?_⟩
  unfold Inside
  decide

end CubeSandbox.HostPaths

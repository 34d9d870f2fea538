import NtpSuite.Core.Assoc

/-!
# Default Settings

The configuration variables as the daemon initializes them, with rational
numbers for its doubles, and an environment in which nothing special
happens. Concrete runs start from these and change the few settings they are
about.

There is no square root on the rationals. The runs only ever take the root
of zero, so any function that keeps zero will do.

## Main definitions

* `defaultCfg`: The settings of a daemon without options.
* `idleEnv`: One interface, no restrictions and no keys.
-/

namespace NtpSuite

/-- The settings of a daemon that was given no options. -/
def defaultCfg : Cfg ℚ where
  autokey := true
  refclock := true
  signd := false
  sys_authenticate := true
  sys_bclient := false
  sys_bdelay := 0
  sys_manycastserver := false
  sys_cohort := false
  ntp_mode7 := false
  mode_ntpdate := false
  crypto_flags := false
  sys_groupname := none
  sys_ident := none
  sys_floor := 0
  sys_ceiling := 15
  sys_minsane := 1
  sys_minclock := 3
  sys_maxclock := 10
  sys_orphan := 17
  sys_orphwait := 300
  sys_beacon := 7200
  sys_ttlmax := 7
  ntp_minpkt := 2
  sys_precision := -20
  sys_mindisp := 1 / 1000
  sys_maxdist := 3 / 2
  clock_phi := 15 / 1000000
  sqrt := fun x => x

/-- The endpoint of the one interface. -/
def idleEndpt : Endpt := { ifnum := 1, addr_refid := 0xc0000201 }

/-- One interface, no restrictions, no keys, no reference clocks, and a clock
    discipline that ignores what it is told. -/
def idleEnv : Env ℚ where
  ntp_random := fun _ => 0
  xmt_tx := 0
  xmt_ty := 0
  findinterface := fun _ => some idleEndpt
  addr2refid6 := fun _ => 0
  select_peerinterface := fun _ ep => ep
  restrictions := fun _ => {}
  ntp_monitor := fun m => m
  authdecrypt := fun _ _ _ => false
  authencrypt := fun _ => 20
  session_key := fun _ _ => 0
  sys_private := 0
  xkeyid := 0
  crypto_recv := fun p => { ok := true, err := false, crypto := p.toCrypto, clears8 := false }
  clock_start := fun _ => none
  pool_addr := false
  local_clock := fun _ => { rval := 0, sys_poll := 6, polled := false }

end NtpSuite

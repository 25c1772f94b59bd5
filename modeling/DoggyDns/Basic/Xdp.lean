import DoggyDns.Basic.Env

/-!
# The `[xdp]` section

`XdpConfig` with its serde defaults, and the part of `validate_config` that
checks it. A disabled section is accepted as it is.
-/

namespace DoggyDns

structure XdpConfig where
  enabled : Bool := false
  interface : Text := []
  cacheSize : UInt32 := 65536
  negativeTtl : UInt64 := 30
  attachMode : Text := "auto".toList
  pinPath : Text := "/sys/fs/bpf/doggy-dns/dns_cache".toList
  deriving DecidableEq, Repr

/-- The checks `validate_config` makes of the section. -/
def validateXdp (config : XdpConfig) : Except Error Unit :=
  if config.enabled then do
    ensure (config.cacheSize > 0) "xdp.cache_size must be greater than 0"
    ensure (config.negativeTtl > 0) "xdp.negative_ttl must be greater than 0"
    ensure (config.attachMode = "auto".toList ∨ config.attachMode = "manual".toList)
      "xdp.attach_mode must be 'auto' or 'manual'"
    ensure ("/sys/fs/bpf/".toList.isPrefixOf config.pinPath)
      "xdp.pin_path must be under /sys/fs/bpf/"
    -- bpffs will not pin an object whose name contains a dot
    ensure (!config.pinPath.contains '.')
      "xdp.pin_path must not contain '.': bpffs cannot pin an object with that name"
  else .ok ()

/-- Every default passes its own check, also once the section is enabled. -/
theorem validateXdp_default (enabled : Bool) : validateXdp { enabled } = .ok () := by
  cases enabled <;> decide +kernel

end DoggyDns

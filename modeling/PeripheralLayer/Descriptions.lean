import PeripheralLayer.Bus.Config
import PeripheralLayer.Clock.Timer
import PeripheralLayer.Json.Codec
import PeripheralLayer.Pin

/-!
The descriptions that boards are given in: which JSON text stands for which settings.
-/
namespace PeripheralLayer

open Json

def Status.codec : Codec Status := choice Status
def Event.codec : Codec Event := choice Event

def Pin.format : RecordFormat Pin where
  name := "PortPin"
  fields := [⟨"port", UInt8, byte⟩, ⟨"pin", UInt8, byte⟩]
  make := fun (port, pin, ()) => ⟨port, pin⟩
  split p := (p.port, p.pin, ())

def Pin.codec : Codec Pin := Pin.format.codec

def BusPins.format : RecordFormat BusPins where
  name := "I2cInterface"
  fields := [⟨"sda", Pin, Pin.codec⟩, ⟨"scl", Pin, Pin.codec⟩]
  make := fun (sda, scl, ()) => ⟨sda, scl⟩
  split p := (p.sda, p.scl, ())

def BusPins.codec : Codec BusPins := BusPins.format.codec

namespace Bus

def Role.codec : Codec Role := choice Role
def ReinitPolicy.codec : Codec ReinitPolicy := choice ReinitPolicy
def DispatchMode.codec : Codec DispatchMode := choice DispatchMode

def BlockConfig.format : RecordFormat BlockConfig where
  name := "I2cBlockConfig"
  fields := [⟨"role", Role, Role.codec⟩, ⟨"address", UInt8, byte⟩, ⟨"frequency_hz", UInt32, fullWord⟩]
  make := fun (role, address, frequency, ()) => ⟨role, address, frequency⟩
  split c := (c.role, c.address, c.frequency, ())

def BlockConfig.codec : Codec BlockConfig := BlockConfig.format.codec

def Config.format : RecordFormat Config where
  name := "MediatorConfig"
  fields :=
    [⟨"max_bitrate_khz", UInt16, halfWord⟩, ⟨"interrupt_priority", UInt8, byte⟩,
     ⟨"reinit", ReinitPolicy, ReinitPolicy.codec⟩, ⟨"dispatch", DispatchMode, DispatchMode.codec⟩]
  make := fun (ceiling, priority, reinit, dispatch, ()) => ⟨ceiling, priority, reinit, dispatch⟩
  split c := (c.ceiling, c.priority, c.reinit, c.dispatch, ())

def Config.codec : Codec Config := Config.format.codec

end Bus

namespace Clock

def CountDirection.codec : Codec CountDirection := choice CountDirection

def CounterConfig.format : RecordFormat CounterConfig where
  name := "TimerConfig"
  fields :=
    [⟨"compare_value", UInt32, fullWord⟩, ⟨"period", UInt32, fullWord⟩,
     ⟨"direction", CountDirection, CountDirection.codec⟩, ⟨"is_compare", Bool, flag⟩,
     ⟨"is_continuous", Bool, flag⟩, ⟨"value", UInt32, fullWord⟩]
  make := fun (compareValue, period, direction, isCompare, isContinuous, value, ()) =>
    ⟨compareValue, period, direction, isCompare, isContinuous, value⟩
  split c := (c.compareValue, c.period, c.direction, c.isCompare, c.isContinuous, c.value, ())

def CounterConfig.codec : Codec CounterConfig := CounterConfig.format.codec

end Clock

inductive Subject where
  | status
  | event
  | pin
  | busPins
  | role
  | blockConfig
  | countDirection
  | counterConfig
  | reinitPolicy
  | dispatchMode
  | mediatorConfig
  deriving DecidableEq, Repr

namespace Subject

def Value : Subject → Type
  | status => Status
  | event => Event
  | pin => Pin
  | busPins => BusPins
  | role => Bus.Role
  | blockConfig => Bus.BlockConfig
  | countDirection => Clock.CountDirection
  | counterConfig => Clock.CounterConfig
  | reinitPolicy => Bus.ReinitPolicy
  | dispatchMode => Bus.DispatchMode
  | mediatorConfig => Bus.Config

def codec : (subject : Subject) → Codec subject.Value
  | status => Status.codec
  | event => Event.codec
  | pin => Pin.codec
  | busPins => BusPins.codec
  | role => Bus.Role.codec
  | blockConfig => Bus.BlockConfig.codec
  | countDirection => Clock.CountDirection.codec
  | counterConfig => Clock.CounterConfig.codec
  | reinitPolicy => Bus.ReinitPolicy.codec
  | dispatchMode => Bus.DispatchMode.codec
  | mediatorConfig => Bus.Config.codec

end Subject

end PeripheralLayer

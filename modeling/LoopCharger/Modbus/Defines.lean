import Mathlib.Data.Int.Notation
import Mathlib.Data.Nat.Notation

/-!
# Modbus codes, framing constants and return codes

The constants of `lib/modbus/modbus_defines.h` that the modelled code uses, and the return codes
of the client API of `lib/modbus/modbus_tcp_client.h`.
-/

namespace LoopCharger.Modbus

/-! ### Function codes -/

def MODBUS_FUNC_READ_HOLDING_REGISTERS : UInt8 := 0x03
def MODBUS_FUNC_WRITE_SINGLE_REGISTER : UInt8 := 0x06
def MODBUS_FUNC_WRITE_MULTIPLE_REGISTERS : UInt8 := 0x10

/-- The bit set in the function code of an exception response. -/
def MODBUS_EXCEPTION_FLAG : UInt8 := 0x80

/-! ### Exception codes -/

def MODBUS_EX_ILLEGAL_FUNCTION : UInt8 := 0x01
def MODBUS_EX_ILLEGAL_DATA_ADDRESS : UInt8 := 0x02

/-! ### Framing and register count limits -/

/-- Number of MBAP header bytes in front of the unit identifier. -/
def MODBUS_TCP_MBAP_HEADER_LEN : ℕ := 6

/-- MBAP length of a request whose PDU has five bytes. -/
def MODBUS_TCP_MBAP_LEN_STANDARD_REQ : UInt8 := 6

/-- Largest ADU, and the size of the response buffers of the client. -/
def MODBUS_TCP_MAX_ADU_LENGTH : ℕ := 260

def MODBUS_MAX_READ_REGISTERS : ℕ := 125
def MODBUS_MAX_WRITE_REGISTERS : ℕ := 123

/-- Largest number of clients of a server at the same time. -/
def MB_TCP_MAX_CLIENTS : ℕ := 10

/-! ### Return codes of the client API -/

def MB_TCP_CLIENT_OK : ℤ := 0
def MB_TCP_CLIENT_ERR_ARG : ℤ := -1
def MB_TCP_CLIENT_ERR_NOT_CONNECTED : ℤ := -2
def MB_TCP_CLIENT_ERR_TRANSPORT : ℤ := -3
def MB_TCP_CLIENT_ERR_TIMEOUT : ℤ := -4
def MB_TCP_CLIENT_ERR_FRAME : ℤ := -5
def MB_TCP_CLIENT_ERR_TID : ℤ := -6

end LoopCharger.Modbus

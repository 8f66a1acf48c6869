import LoopCharger.Lib.Machine
import LoopCharger.Lib.Ring
import LoopCharger.Lib.Search
import LoopCharger.Lib.Bytes
import LoopCharger.Lib.Framing
import LoopCharger.Lib.Runs
import LoopCharger.Lib.History
import LoopCharger.Lib.Usage
import LoopCharger.Lib.Lines
import LoopCharger.Lib.Words
import LoopCharger.Modbus.Defines
import LoopCharger.Modbus.Transport
import LoopCharger.Modbus.Receive
import LoopCharger.Modbus.Client
import LoopCharger.Modbus.Timeouts
import LoopCharger.Modbus.Cutting
import LoopCharger.Modbus.Connect
import LoopCharger.Modbus.Resources
import LoopCharger.Modbus.Verdict
import LoopCharger.Modbus.Server
import LoopCharger.Modbus.Peer
import LoopCharger.Modbus.Shared
import LoopCharger.Modbus.Link
import LoopCharger.Modbus.Session
import LoopCharger.DeviceMap.Profile
import LoopCharger.DeviceMap.Search
import LoopCharger.DeviceMap.Pool
import LoopCharger.Ups.CmdQueue
import LoopCharger.Ups.Unit
import LoopCharger.Ups.Scan
import LoopCharger.Ups.Thread
import LoopCharger.Ups.Map
import LoopCharger.Ups.Bridge
import LoopCharger.Ups.Permission
import LoopCharger.Ups.Resources
import LoopCharger.Ups.Startup
import LoopCharger.Ups.Ingest
import LoopCharger.Ups.Owners
import LoopCharger.Alarm.Engine
import LoopCharger.Alarm.Monitor
import LoopCharger.Alarm.Daemon
import LoopCharger.Cmos.Publish
import LoopCharger.Cmos.Dispatch
import LoopCharger.Cmos.Subscriber
import LoopCharger.Cmos.Delivery
import LoopCharger.Cmos.Redirect
import LoopCharger.Lib.Strtoul
import LoopCharger.Ups.Commands
import LoopCharger.Lib.Overwrite
import LoopCharger.Alarm.Log
import LoopCharger.Lib.Keyed
import LoopCharger.DeviceMap.Keyed
import LoopCharger.Cmos.Lookup
import LoopCharger.Lib.Slots
import LoopCharger.Cmos.Table
import LoopCharger.Cmos.Retry
import LoopCharger.Cmos.Broadcast
import LoopCharger.Modbus.Links
import LoopCharger.Lib.Stores
import LoopCharger.Modbus.Build
import LoopCharger.DeviceMap.Access
import LoopCharger.Ups.Requests
import LoopCharger.Ups.Failures
import LoopCharger.Ups.Message
import LoopCharger.Cmos.Line
import LoopCharger.Cmos.SubSocks
import LoopCharger.Alarm.Faults
import LoopCharger.Cmos.Parse
import LoopCharger.Lib.Reading
import LoopCharger.Modbus.Decoder
import LoopCharger.Modbus.Tids
import LoopCharger.Cmos.Endless
import LoopCharger.Config.Loader
import LoopCharger.Modbus.Select
import LoopCharger.Lib.Decimal
import LoopCharger.Cmos.Transfer
import LoopCharger.Ups.Gateway
import LoopCharger.Ups.Operator
import LoopCharger.Lib.Progress
import LoopCharger.Ups.Response
import LoopCharger.Ups.Telemetry
import LoopCharger.Ups.Connection
import LoopCharger.Ups.Display
import LoopCharger.Modbus.Device
import LoopCharger.Ups.Mirror
import LoopCharger.Cmos.Master
import LoopCharger.Main.Program
import LoopCharger.Main.Shutdown
import LoopCharger.Main.Records
import LoopCharger.Main.TimeLeft
import LoopCharger.Main.Return
import LoopCharger.Main.TimeLeft
import LoopCharger.Main.Return

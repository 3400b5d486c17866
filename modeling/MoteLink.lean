import MoteLink.Alarm.Worker
import MoteLink.Extremum
import MoteLink.Fifo
import MoteLink.Halt
import MoteLink.Header.Decode
import MoteLink.Link.Basic
import MoteLink.Network
import MoteLink.Proofs.Alarm.Agenda
import MoteLink.Proofs.Alarm.Due
import MoteLink.Proofs.Alarm.Firing
import MoteLink.Proofs.Alarm.History
import MoteLink.Proofs.Alarm.InPlace
import MoteLink.Proofs.Alarm.Order
import MoteLink.Proofs.Alarm.Rounds
import MoteLink.Proofs.Alarm.Script
import MoteLink.Proofs.Alarm.Shift
import MoteLink.Proofs.Alarm.Signalling
import MoteLink.Proofs.Alarm.Upright
import MoteLink.Proofs.Clock
import MoteLink.Proofs.Header.Canonical
import MoteLink.Proofs.Header.Cursor
import MoteLink.Proofs.Header.Layout
import MoteLink.Proofs.Header.Reading
import MoteLink.Proofs.Header.RoundTrip
import MoteLink.Proofs.Header.Writing
import MoteLink.Proofs.Link.Acceptance
import MoteLink.Proofs.Link.Acknowledged.AttemptLaw
import MoteLink.Proofs.Link.Acknowledged.Call
import MoteLink.Proofs.Link.Acknowledged.Conversation
import MoteLink.Proofs.Link.Acknowledged.Exchange
import MoteLink.Proofs.Link.Acknowledged.Invariant
import MoteLink.Proofs.Link.Acknowledged.Life
import MoteLink.Proofs.Link.Acknowledged.Neighbours
import MoteLink.Proofs.Link.Acknowledged.Numbering
import MoteLink.Proofs.Link.Acknowledged.Orderly
import MoteLink.Proofs.Link.Acknowledged.Places
import MoteLink.Proofs.Link.Acknowledged.Step
import MoteLink.Proofs.Link.Admission
import MoteLink.Proofs.Link.Cancellation
import MoteLink.Proofs.Link.CarrierSense.Invariant
import MoteLink.Proofs.Link.CarrierSense.Step
import MoteLink.Proofs.Link.Conveyance
import MoteLink.Proofs.Link.Deadline
import MoteLink.Proofs.Link.Inbound
import MoteLink.Proofs.Link.Ledger
import MoteLink.Proofs.Link.Line
import MoteLink.Proofs.Link.Listening.Attempt
import MoteLink.Proofs.Link.Listening.Run
import MoteLink.Proofs.Link.Listening.Step
import MoteLink.Proofs.Link.Outbox
import MoteLink.Proofs.Link.Outcomes
import MoteLink.Proofs.Link.Queueing
import MoteLink.Proofs.Link.Recognition
import MoteLink.Proofs.Link.Recording
import MoteLink.Proofs.Link.Run
import MoteLink.Proofs.Link.SendTime
import MoteLink.Proofs.Link.Serving
import MoteLink.Proofs.Link.Settling
import MoteLink.Proofs.Link.Shift.Outbox
import MoteLink.Proofs.Link.Shift.Run
import MoteLink.Proofs.Link.Station
import MoteLink.Proofs.Link.TimeSlot
import MoteLink.Proofs.Link.TimeSlot.Apart
import MoteLink.Proofs.Link.TimeSlot.Slots
import MoteLink.Proofs.Link.TimeSlot.Start
import MoteLink.Proofs.Link.Transmissions
import MoteLink.Proofs.Link.Waiting
import MoteLink.Proofs.Link.Wakeup
import MoteLink.Proofs.Node.Collecting
import MoteLink.Proofs.Node.Deed
import MoteLink.Proofs.Node.Mirror
import MoteLink.Proofs.Node.Starvation
import MoteLink.Proofs.Receivers
import MoteLink.Proofs.Relay
import MoteLink.Proofs.Tick
import MoteLink.Proofs.Trace
import MoteLink.Radio.Bench
import MoteLink.Radio.Device
import MoteLink.Radio.Monitor
import MoteLink.Radio.Recorder
import MoteLink.Radio.Tally
import MoteLink.Random
import MoteLink.Settle
import MoteLink.Tick
